import Mathlib.Algebra.Order.Group.Nat
import Tp79Boot.Lib.ByteStore
import Tp79Boot.Lib.WhileLoop
import Tp79Boot.MyString

/-!
# The loops of the hexadecimal codec

`str_to_hex` and `hex_to_str` as loops with a counter of sixteen bits that
write into memory.  They come to an end, leave the bytes that `strToHex` and
`hexToStr` describe, and undo each other.
-/

namespace Tp79Boot

open ByteStore WhileLoop

/-- The counter of a loop and the memory its destination points into. -/
structure HexLoop where
  i : UInt16
  memory : Store UInt8

def strToHexTurn (string : List UInt8) (strlen : UInt16) (state : HexLoop) :
    Turn HexLoop :=
  if state.i < strlen then
    let place := state.i.toNat
    .again
      { i := state.i + 2
        memory := Function.update state.memory (place / 2)
          (hexByte (byteAt string place) (byteAt string (place + 1))) }
  else .done state

/-- `str_to_hex`; the counter has no more values than there are turns. -/
def strToHexLoop (string : List UInt8) (strlen : UInt16)
    (pout : Store UInt8) : Option (Store UInt8) :=
  (loop (strToHexTurn string strlen) 0x10000
    { i := 0, memory := pout }).map HexLoop.memory

def hexToStrTurn (pbSrc : List UInt8) (nLen : UInt16) (state : HexLoop) :
    Turn HexLoop :=
  if state.i < nLen then
    let place := state.i.toNat
    let ddh := hexDigit (byteAt pbSrc place / 16)
    let ddl := hexDigit (byteAt pbSrc place % 16)
    .again
      { i := state.i + 1
        memory := Function.update
          (Function.update state.memory (place * 2) ddh) (place * 2 + 1) ddl }
  else .done state

/-- `hex_to_str`, with the zero behind the digits. -/
def hexToStrLoop (pbSrc : List UInt8) (nLen : UInt16) (pbDest : Store UInt8) :
    Option (Store UInt8) :=
  (loop (hexToStrTurn pbSrc nLen) 0x10000 { i := 0, memory := pbDest }).map
    fun final => Function.update final.memory (nLen.toNat * 2) 0

section

variable {string : List UInt8} {strlen : UInt16} {half : Nat}

theorem strToHex_succ (string : List UInt8) (count : Nat) :
    strToHex string (2 * (count + 1)) =
      strToHex string (2 * count) ++
        [hexByte (byteAt string (2 * count))
          (byteAt string (2 * count + 1))] := by
  have more : (2 * (count + 1) + 1) / 2 = count + 1 := by omega
  have less : (2 * count + 1) / 2 = count := by omega
  rw [strToHex, strToHex, more, less, List.range_succ, List.map_append]
  rfl

theorem evenCounter (even : strlen.toNat = 2 * half) {count : Nat}
    (inside : count ≤ half) : (UInt16.ofNat (2 * count)).toNat = 2 * count := by
  have range := strlen.toNat_lt
  have small : 2 * count < 2 ^ 16 := by omega
  exact UInt16.toNat_ofNat_of_lt' small

theorem strToHexTurn_again (even : strlen.toNat = 2 * half) (pout : Store UInt8)
    {count : Nat} (inside : count < half) :
    strToHexTurn string strlen
        { i := UInt16.ofNat (2 * count)
          memory := save pout 0 (strToHex string (2 * count)) } =
      .again
        { i := UInt16.ofNat (2 * (count + 1))
          memory := save pout 0 (strToHex string (2 * (count + 1))) } := by
  have here := evenCounter even (Nat.le_of_lt inside)
  have before : UInt16.ofNat (2 * count) < strlen := by
    rw [UInt16.lt_iff_toNat_lt, here, even]
    omega
  have next : UInt16.ofNat (2 * count) + 2 = UInt16.ofNat (2 * (count + 1)) := by
    rw [Nat.mul_succ, UInt16.ofNat_add]
    rfl
  have length : (strToHex string (2 * count)).length = count := by
    rw [strToHex_length]
    omega
  have place : 0 + (strToHex string (2 * count)).length = 2 * count / 2 := by
    rw [length]
    omega
  rw [strToHexTurn, if_pos before, here, next, strToHex_succ, save_concat,
    place]

theorem strToHexTurn_done (even : strlen.toNat = 2 * half)
    (memory : Store UInt8) :
    strToHexTurn string strlen
        { i := UInt16.ofNat (2 * half), memory := memory } =
      .done { i := UInt16.ofNat (2 * half), memory := memory } := by
  apply if_neg
  rw [UInt16.lt_iff_toNat_lt, evenCounter even (Nat.le_refl half), even]
  exact Nat.lt_irrefl _

theorem strToHexLoop_from (even : strlen.toNat = 2 * half) (pout : Store UInt8)
    {count left turns : Nat} (total : count + left = half)
    (enough : left < turns) :
    loop (strToHexTurn string strlen) turns
        { i := UInt16.ofNat (2 * count)
          memory := save pout 0 (strToHex string (2 * count)) } =
      some
        { i := UInt16.ofNat (2 * half)
          memory := save pout 0 (strToHex string (2 * half)) } := by
  induction left generalizing count turns with
  | zero =>
      obtain ⟨turns, rfl⟩ := Nat.exists_eq_add_of_lt enough
      rw [Nat.add_zero] at total
      rw [total]
      exact loop_done (strToHexTurn_done even _) _
  | succ left induction =>
      obtain ⟨turns, rfl⟩ := Nat.exists_eq_add_of_lt enough
      have inside : count < half := by omega
      rw [loop_again (strToHexTurn_again even pout inside)]
      exact induction (by omega) (by omega)

theorem strToHexLoop_eq (even : strlen.toNat = 2 * half) (pout : Store UInt8) :
    strToHexLoop string strlen pout =
      some (save pout 0 (strToHex string (2 * half))) := by
  have range := strlen.toNat_lt
  have whole := @strToHexLoop_from string strlen half even pout 0 half 0x10000
    (Nat.zero_add half) (by omega)
  have nothing : strToHex string (2 * 0) = [] := rfl
  rw [nothing, save_nil] at whole
  rw [strToHexLoop]
  exact congrArg (Option.map HexLoop.memory) whole

end

section

variable {pbSrc : List UInt8} {nLen : UInt16}

theorem hexChars_succ (pbSrc : List UInt8) (count : Nat) :
    hexChars (bytesAt pbSrc 0 (count + 1)) =
      hexChars (bytesAt pbSrc 0 count) ++ [hexDigit (byteAt pbSrc count / 16)] ++
        [hexDigit (byteAt pbSrc count % 16)] := by
  have bytes : bytesAt pbSrc 0 (count + 1) =
      bytesAt pbSrc 0 count ++ [byteAt pbSrc count] := by
    rw [bytesAt, List.range_succ, List.map_append, List.map_singleton,
      Nat.zero_add]
    rfl
  rw [bytes, hexChars, List.flatMap_append, List.flatMap_singleton, hexDigits,
    List.append_assoc]
  rfl

theorem hexToStrTurn_again (pbDest : Store UInt8) {count : Nat}
    (inside : count < nLen.toNat) :
    hexToStrTurn pbSrc nLen
        { i := UInt16.ofNat count
          memory := save pbDest 0 (hexChars (bytesAt pbSrc 0 count)) } =
      .again
        { i := UInt16.ofNat (count + 1)
          memory := save pbDest 0 (hexChars (bytesAt pbSrc 0 (count + 1))) } := by
  have here : (UInt16.ofNat count).toNat = count :=
    UInt16.toNat_ofNat_of_lt' (Nat.lt_trans inside nLen.toNat_lt)
  have before : UInt16.ofNat count < nLen := by
    rw [UInt16.lt_iff_toNat_lt, here]
    exact inside
  have length : (hexChars (bytesAt pbSrc 0 count)).length = count * 2 := by
    rw [hexChars_length, bytesAt_length, Nat.mul_comm]
  have next : UInt16.ofNat count + 1 = UInt16.ofNat (count + 1) := by
    rw [UInt16.ofNat_add]
    rfl
  rw [hexToStrTurn, if_pos before, here, next, hexChars_succ, save_concat,
    save_concat, List.length_append, length, Nat.zero_add, Nat.zero_add]
  rfl

theorem hexToStrTurn_done (memory : Store UInt8) :
    hexToStrTurn pbSrc nLen { i := nLen, memory := memory } =
      .done { i := nLen, memory := memory } :=
  if_neg (UInt16.lt_irrefl nLen)

theorem hexToStrLoop_from (pbDest : Store UInt8) {count left turns : Nat}
    (total : count + left = nLen.toNat) (enough : left < turns) :
    loop (hexToStrTurn pbSrc nLen) turns
        { i := UInt16.ofNat count
          memory := save pbDest 0 (hexChars (bytesAt pbSrc 0 count)) } =
      some
        { i := nLen
          memory := save pbDest 0 (hexChars (bytesAt pbSrc 0 nLen.toNat)) } := by
  induction left generalizing count turns with
  | zero =>
      obtain ⟨turns, rfl⟩ := Nat.exists_eq_add_of_lt enough
      rw [Nat.add_zero] at total
      rw [total, UInt16.ofNat_toNat]
      exact loop_done (hexToStrTurn_done _) _
  | succ left induction =>
      obtain ⟨turns, rfl⟩ := Nat.exists_eq_add_of_lt enough
      have inside : count < nLen.toNat := by omega
      rw [loop_again (hexToStrTurn_again pbDest inside)]
      exact induction (by omega) (by omega)

theorem hexToStrLoop_eq (pbDest : Store UInt8) :
    hexToStrLoop pbSrc nLen pbDest =
      some (save pbDest 0 (hexToStr pbSrc nLen.toNat)) := by
  have range := nLen.toNat_lt
  have whole := @hexToStrLoop_from pbSrc nLen pbDest 0 nLen.toNat 0x10000
    (Nat.zero_add _) range
  have nothing : hexChars (bytesAt pbSrc 0 0) = [] := rfl
  have length : 0 + (hexChars (bytesAt pbSrc 0 nLen.toNat)).length =
      nLen.toNat * 2 := by
    rw [hexChars_length, bytesAt_length, Nat.zero_add, Nat.mul_comm]
  rw [nothing, save_nil] at whole
  rw [hexToStrLoop, hexToStr, save_concat, length]
  exact congrArg (Option.map fun final : HexLoop =>
    Function.update final.memory (nLen.toNat * 2) 0) whole

end

/-- A character in 0-9A-F. -/
def UpperDigit (character : UInt8) : Prop :=
  48 ≤ character ∧ character ≤ 57 ∨ 65 ≤ character ∧ character ≤ 70

/-- A hexadecimal digit in either case. -/
def HexDigit (character : UInt8) : Prop :=
  UpperDigit character ∨ 97 ≤ character ∧ character ≤ 102

instance (character : UInt8) : Decidable (UpperDigit character) :=
  inferInstanceAs (Decidable (_ ∨ _))

instance (character : UInt8) : Decidable (HexDigit character) :=
  inferInstanceAs (Decidable (_ ∨ _))

theorem hexDigit_of_all {digits : List UInt8}
    (check : (digits.all fun character => decide (HexDigit character)) =
      true) : ∀ character ∈ digits, HexDigit character := by
  intro character member
  exact of_decide_eq_true (List.all_eq_true.mp check character member)

private theorem upperDigit_table : ∀ value : Fin 16,
    UpperDigit (hexDigit (UInt8.ofNat value)) := by
  decide

private theorem nibble_table : ∀ value : Fin 256,
    HexDigit (UInt8.ofNat value) →
      hexNibble (UInt8.ofNat value) < 16 ∧
        hexDigit (hexNibble (UInt8.ofNat value)) =
          toupper (UInt8.ofNat value) := by
  decide +kernel

private theorem halves_table : ∀ high low : Fin 16,
    (UInt8.ofNat high <<< 4 ||| UInt8.ofNat low) / 16 = UInt8.ofNat high ∧
      (UInt8.ofNat high <<< 4 ||| UInt8.ofNat low) % 16 = UInt8.ofNat low := by
  decide

theorem hexDigit_upper {value : UInt8} (small : value < 16) :
    UpperDigit (hexDigit value) := by
  have entry := upperDigit_table ⟨value.toNat, small⟩
  rwa [UInt8.ofNat_toNat] at entry

theorem hexNibble_digit {character : UInt8} (digit : HexDigit character) :
    hexNibble character < 16 ∧
      hexDigit (hexNibble character) = toupper character := by
  have entry := nibble_table ⟨character.toNat, character.toNat_lt⟩
  rw [UInt8.ofNat_toNat] at entry
  exact entry digit

theorem hexDigits_hexByte {highByte lowByte : UInt8} (high : HexDigit highByte)
    (low : HexDigit lowByte) :
    hexDigits (hexByte highByte lowByte) =
      [toupper highByte, toupper lowByte] := by
  obtain ⟨highSmall, highDigit⟩ := hexNibble_digit high
  obtain ⟨lowSmall, lowDigit⟩ := hexNibble_digit low
  have halves := halves_table ⟨(hexNibble highByte).toNat, highSmall⟩
    ⟨(hexNibble lowByte).toNat, lowSmall⟩
  rw [UInt8.ofNat_toNat, UInt8.ofNat_toNat] at halves
  rw [hexDigits, hexByte, halves.1, halves.2, highDigit, lowDigit]

theorem hexChars_upper {bytes : List UInt8} {character : UInt8}
    (member : character ∈ hexChars bytes) : UpperDigit character := by
  obtain ⟨byte, _, digit⟩ := List.mem_flatMap.mp member
  have range := byte.toNat_lt
  rcases List.mem_cons.mp digit with rfl | later
  · apply hexDigit_upper
    rw [UInt8.lt_iff_toNat_lt, UInt8.toNat_div]
    exact Nat.div_lt_of_lt_mul range
  · rw [List.mem_singleton.mp later]
    apply hexDigit_upper
    rw [UInt8.lt_iff_toNat_lt, UInt8.toNat_mod]
    exact Nat.mod_lt _ (by decide)

/-- What `hex_to_str` prints of what `str_to_hex` read is the text in upper
case. -/
theorem hexChars_strToHex {digits : List UInt8}
    (hexadecimal : ∀ character ∈ digits, HexDigit character) {count : Nat}
    (inside : 2 * count ≤ digits.length) :
    hexChars (strToHex digits (2 * count)) =
      (digits.take (2 * count)).map toupper := by
  induction count with
  | zero => rfl
  | succ count induction =>
      have first : 2 * count < digits.length := by omega
      have second : 2 * count + 1 < digits.length := by omega
      have further : digits.take (2 * (count + 1)) =
          digits.take (2 * count) ++
            [digits[2 * count], digits[2 * count + 1]] := by
        rw [Nat.mul_succ, List.take_add_one, List.take_add_one,
          List.getElem?_eq_getElem first, List.getElem?_eq_getElem second]
        exact List.append_assoc _ [digits[2 * count]] [digits[2 * count + 1]]
      have printed := hexDigits_hexByte
        (hexadecimal _ (List.getElem_mem first))
        (hexadecimal _ (List.getElem_mem second))
      rw [strToHex_succ, hexChars, List.flatMap_append, List.flatMap_singleton,
        byteAt_of_lt first, byteAt_of_lt second, printed, further,
        List.map_append, ← induction (Nat.le_of_lt first)]
      rfl

/-- What `hex_to_str` leaves for `count` bytes. -/
structure HexPrinted (count : Nat) (before after : Store UInt8) : Prop where
  digits : ∀ place, place < 2 * count → UpperDigit (after place)
  zero : after (2 * count) = 0
  unchanged : ∀ place, 2 * count < place → after place = before place

theorem bytesAt_all (bytes : List UInt8) :
    bytesAt bytes 0 bytes.length = bytes := by
  rw [bytesAt_eq_take (Nat.le_of_eq (Nat.zero_add _)), List.drop_zero,
    List.take_length]

theorem hexPrinted_save (bytes : List UInt8) (pbDest : Store UInt8) :
    HexPrinted bytes.length pbDest (save pbDest 0 (hexChars bytes ++ [0])) := by
  have length := hexChars_length bytes
  constructor
  · intro place inside
    have within : place < (hexChars bytes).length := by
      rw [length]
      exact inside
    have bound : place < (hexChars bytes ++ [0]).length := by
      rw [List.length_append]
      exact Nat.lt_add_right _ within
    have stored := @save_inside _ pbDest 0 _ _ bound
    rw [Nat.zero_add, List.getElem_append_left within] at stored
    rw [stored]
    exact hexChars_upper (List.getElem_mem within)
  · rw [← length, save_concat, Nat.zero_add, Function.update_self]
  · intro place behind
    apply save_behind
    rw [List.length_append, length, List.length_singleton]
    omega

theorem hexToStrLoop_bytes {bytes : List UInt8}
    (fits : bytes.length < 2 ^ 16) (pbDest : Store UInt8) :
    hexToStrLoop bytes (UInt16.ofNat bytes.length) pbDest =
      some (save pbDest 0 (hexChars bytes ++ [0])) := by
  have length : (UInt16.ofNat bytes.length).toNat = bytes.length :=
    UInt16.toNat_ofNat_of_lt' fits
  rw [hexToStrLoop_eq, length, hexToStr, bytesAt_all]

theorem strToHexLoop_even {digits : List UInt8} {half : Nat}
    (even : 2 * half < 2 ^ 16) (pout : Store UInt8) :
    strToHexLoop digits (UInt16.ofNat (2 * half)) pout =
      some (save pout 0 (strToHex digits (2 * half))) :=
  strToHexLoop_eq (UInt16.toNat_ofNat_of_lt' even) pout

theorem load_save_front (store : Store UInt8) (first second : List UInt8) :
    load (save store 0 (first ++ second)) 0 first.length = first := by
  apply List.ext_getElem load_length
  intro index _ inside
  have bound : index < (first ++ second).length := by
    rw [List.length_append]
    exact Nat.lt_add_right _ inside
  rw [load_getElem, save_inside bound, List.getElem_append_left inside]

theorem bytes_readBack {bytes : List UInt8} (short : bytes.length ≤ 32767)
    (pbDest pout : Store UInt8) :
    ∃ text back,
      hexToStrLoop bytes (UInt16.ofNat bytes.length) pbDest = some text ∧
        HexPrinted bytes.length pbDest text ∧
        strToHexLoop (load text 0 (2 * bytes.length))
            (UInt16.ofNat (2 * bytes.length)) pout = some back ∧
        load back 0 bytes.length = bytes := by
  have characters : load (save pbDest 0 (hexChars bytes ++ [0])) 0
      (2 * bytes.length) = hexChars bytes := by
    rw [← hexChars_length]
    exact load_save_front _ _ _
  have decoded : strToHex (hexChars bytes) (2 * bytes.length) = bytes := by
    have whole := strToHex_hexChars bytes []
    rwa [List.append_nil] at whole
  refine ⟨_, _, hexToStrLoop_bytes (by omega) pbDest,
    hexPrinted_save bytes pbDest, strToHexLoop_even (by omega) pout, ?_⟩
  rw [characters, decoded]
  exact load_save

/-- Digits that are read as bytes are printed back in upper case. -/
theorem digits_printedBack {digits : List UInt8} (even : 2 ∣ digits.length)
    (fits : digits.length < 2 ^ 16)
    (hexadecimal : ∀ character ∈ digits, HexDigit character)
    (pbDest pout : Store UInt8) :
    ∃ value text,
      strToHexLoop digits (UInt16.ofNat digits.length) pout = some value ∧
        hexToStrLoop (load value 0 (digits.length / 2))
            (UInt16.ofNat (digits.length / 2)) pbDest = some text ∧
        load text 0 (digits.length + 1) = digits.map toupper ++ [0] := by
  obtain ⟨half, length⟩ := even
  have value : (strToHex digits (2 * half)).length = half := by
    rw [strToHex_length]
    omega
  have loaded : load (save pout 0 (strToHex digits (2 * half))) 0 half =
      strToHex digits (2 * half) := by
    have stored := @load_save _ pout 0 (strToHex digits (2 * half))
    rwa [value] at stored
  have quotient : digits.length / 2 = half := by omega
  have upper : hexChars (strToHex digits (2 * half)) =
      digits.map toupper := by
    rw [hexChars_strToHex hexadecimal (Nat.le_of_eq length.symm), ← length,
      List.take_length]
  have printed := @hexToStrLoop_bytes (strToHex digits (2 * half))
    (by omega) pbDest
  rw [value, upper] at printed
  rw [length] at fits
  refine ⟨save pout 0 (strToHex digits (2 * half)),
    save pbDest 0 (digits.map toupper ++ [0]), ?_, ?_, ?_⟩
  · rw [length]
    exact strToHexLoop_even fits pout
  · rw [quotient, loaded]
    exact printed
  · have stored := @load_save _ pbDest 0 (digits.map toupper ++ [0])
    rwa [List.length_append, List.length_map, List.length_singleton]
      at stored

/-- The two functions are inverse to each other: bytes are printed as digits
that read back as the bytes, and digits read as bytes are printed in upper
case. -/
theorem hexCodec_inverse {bytes digits : List UInt8}
    (short : bytes.length ≤ 32767) (even : 2 ∣ digits.length)
    (fits : digits.length < 2 ^ 16)
    (hexadecimal : ∀ character ∈ digits, HexDigit character)
    (pbDest pout : Store UInt8) :
    (∃ text back,
      hexToStrLoop bytes (UInt16.ofNat bytes.length) pbDest = some text ∧
        HexPrinted bytes.length pbDest text ∧
        strToHexLoop (load text 0 (2 * bytes.length))
            (UInt16.ofNat (2 * bytes.length)) pout = some back ∧
        load back 0 bytes.length = bytes) ∧
      ∃ value text,
        strToHexLoop digits (UInt16.ofNat digits.length) pout = some value ∧
          hexToStrLoop (load value 0 (digits.length / 2))
              (UInt16.ofNat (digits.length / 2)) pbDest = some text ∧
          load text 0 (digits.length + 1) = digits.map toupper ++ [0] := by
  constructor
  · exact bytes_readBack short pbDest pout
  · exact digits_printedBack even fits hexadecimal pbDest pout

/-- Three bytes, and digits in both cases. -/
theorem hexCodec_inverse_short :
    (∃ text back,
      hexToStrLoop [0x00, 0x9A, 0xFF] 3 (fun _ => 0x55) = some text ∧
        HexPrinted 3 (fun _ => 0x55) text ∧
        strToHexLoop (load text 0 6) 6 (fun _ => 0) = some back ∧
        load back 0 3 = [0x00, 0x9A, 0xFF]) ∧
      ∃ value text,
        strToHexLoop (ascii "aF09") 4 (fun _ => 0) = some value ∧
          hexToStrLoop (load value 0 2) 2 (fun _ => 0x55) = some text ∧
          load text 0 5 = ascii "AF09" ++ [0] :=
  @hexCodec_inverse [0x00, 0x9A, 0xFF] (ascii "aF09") (by decide) (by decide)
    (by decide) (hexDigit_of_all (by decide)) (fun _ => 0x55) (fun _ => 0)

end Tp79Boot
