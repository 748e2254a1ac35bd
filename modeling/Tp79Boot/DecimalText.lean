import Tp79Boot.Lib.ByteStore
import Tp79Boot.MyString

/-!
# Numbers as text for the speech module

`uint16_to_unicode_decstr` of `my_string.c` copies zeros from a template and
puts the digits in place.  The speech module takes text as the hexadecimal form
of UTF-16, so a digit is four characters.
-/

namespace Tp79Boot

open ByteStore

/-- The loop that looks for a power of ten above `dec`; `num` has sixteen bits,
and the fifth power does not fit. -/
def powerOfTenLoop (dec : UInt16) : Nat → UInt8 → UInt16 → UInt8
  | 0, i, _ => i
  | turns + 1, i, num =>
      if dec < num * 10 then i
      else powerOfTenLoop dec turns (i + 1) (num * 10)

def decimalPlace (dec : UInt16) : UInt8 :=
  powerOfTenLoop dec 5 0 1

/-- The literal `"3000300030003000"` with its zero; `around` is the memory it
stands in. -/
def zerosTemplate (around : Store UInt8) : Store UInt8 :=
  save around 0 (ascii "3000300030003000" ++ [0])

/-- The bytes `memcpy` takes from the template. -/
def decstrCopied (dec : UInt16) : Nat :=
  ((decimalPlace dec).toNat + 1) * 4

/-- `str_uni[place] = value + '0'`. -/
def putDigit (strUni : Store UInt8) (place : Nat) (value : UInt16) :
    Store UInt8 :=
  Function.update strUni place (value.toUInt8 + 0x30)

def uint16ToUnicodeDecstr (around strUni : Store UInt8) (dec : UInt16) :
    UInt8 × Store UInt8 :=
  let i := decimalPlace dec
  let copied := save strUni 0 (load (zerosTemplate around) 0 (decstrCopied dec))
  let written :=
    if i = 0 then putDigit copied 1 (dec % 10)
    else if i = 1 then
      putDigit (putDigit copied 5 (dec % 10)) 1 (dec / 10)
    else if i = 2 then
      putDigit (putDigit (putDigit copied 9 (dec % 10)) 5 (dec / 10)) 1
        (dec / 100)
    else if i = 3 then
      putDigit (putDigit (putDigit (putDigit copied 13 (dec % 10)) 9 (dec / 10))
        5 (dec / 100)) 1 (dec / 1000)
    else copied
  ((i + 1) * 4, written)

/-- The decimal representation in UTF-16, low byte first. -/
def utf16leDecimal (value : Nat) : List UInt8 :=
  (Nat.toDigits 10 value).flatMap fun digit => [digit.toNat.toUInt8, 0]

/-- The number is written as the hexadecimal form of its decimal
representation and nothing else is, the length is that of the text, and the
template is not left. -/
structure PrintsDecimal (around strUni : Store UInt8) (dec : UInt16) : Prop where
  text : (uint16ToUnicodeDecstr around strUni dec).2 =
    save strUni 0 (hexChars (utf16leDecimal dec.toNat))
  length : (uint16ToUnicodeDecstr around strUni dec).1.toNat =
    4 * (Nat.toDigits 10 dec.toNat).length
  inside : decstrCopied dec ≤ 16

/-- The loop stops at the first power of ten above the number, and the fifth
one is 34464. -/
theorem decimalPlace_eq (dec : UInt16) :
    decimalPlace dec =
      if dec < 10 then 0 else if dec < 100 then 1 else if dec < 1000 then 2
      else if dec < 10000 then 3 else if dec < 34464 then 4 else 5 := rfl

/-- The four characters of a digit. -/
def digitGroup (digit : Nat) : List UInt8 :=
  [0x33, UInt8.ofNat digit + 0x30, 0x30, 0x30]

def unicodeDecimal (value : Nat) : List UInt8 :=
  hexChars (utf16leDecimal value)

private theorem digitGroup_table : ∀ digit : Fin 10,
    hexChars [(Nat.digitChar digit).toNat.toUInt8, 0] =
      digitGroup digit := by
  decide

theorem unicodeDecimal_digit {value : Nat} (small : value < 10) :
    unicodeDecimal value = digitGroup value := by
  have entry := digitGroup_table ⟨value, small⟩
  rw [unicodeDecimal, utf16leDecimal, Nat.toDigits_of_lt_base small]
  exact entry

theorem unicodeDecimal_more {value : Nat} (large : 10 ≤ value) :
    unicodeDecimal value =
      unicodeDecimal (value / 10) ++ digitGroup (value % 10) := by
  have last := digitGroup_table ⟨value % 10, Nat.mod_lt _ (by decide)⟩
  rw [unicodeDecimal, utf16leDecimal,
    Nat.toDigits_of_base_le (by decide) large, List.flatMap_append, hexChars,
    List.flatMap_append, List.flatMap_singleton]
  exact congrArg (unicodeDecimal (value / 10) ++ ·) last

theorem unicodeDecimal_two {value : Nat} (large : 10 ≤ value)
    (small : value < 100) :
    unicodeDecimal value = digitGroup (value / 10) ++ digitGroup (value % 10) := by
  rw [unicodeDecimal_more large, unicodeDecimal_digit (by omega)]

theorem length_unicodeDecimal (value : Nat) :
    (unicodeDecimal value).length = 4 * (Nat.toDigits 10 value).length := by
  have pairs (digits : List Char) :
      (digits.flatMap fun digit => [digit.toNat.toUInt8, (0 : UInt8)]).length =
        2 * digits.length := by
    induction digits with
    | nil => rfl
    | cons digit digits induction =>
        rw [List.flatMap_cons, List.length_append, induction]
        exact Nat.add_comm 2 (2 * digits.length)
  rw [unicodeDecimal, hexChars_length, utf16leDecimal, pairs]
  omega

theorem unicodeDecimal_second {value : Nat} (large : 10 ≤ value)
    (small : value < 100) (rest : List UInt8) :
    byteAt (unicodeDecimal value ++ rest) 5 =
      UInt8.ofNat (value % 10) + 0x30 := by
  rw [unicodeDecimal_two large small]
  rfl

section

variable (around strUni : Store UInt8) {dec : UInt16}

theorem load_zerosTemplate :
    load (zerosTemplate around) 0 4 = digitGroup 0 ∧
      load (zerosTemplate around) 0 8 = digitGroup 0 ++ digitGroup 0 :=
  ⟨rfl, rfl⟩

theorem putDigit_save (data : List UInt8) {place : Nat} (value : UInt16)
    (inside : place < data.length) :
    putDigit (save strUni 0 data) place value =
      save strUni 0 (data.set place (UInt8.ofNat value.toNat + 0x30)) := by
  have set := @save_set _ strUni 0 data place (value.toUInt8 + 0x30) inside
  rwa [Nat.zero_add] at set

theorem decstr_oneDigit (small : dec < 10) :
    uint16ToUnicodeDecstr around strUni dec =
      (4, save strUni 0 (unicodeDecimal dec.toNat)) := by
  have place : decimalPlace dec = 0 := by
    rw [decimalPlace_eq, if_pos small]
  have copied : decstrCopied dec = 4 := by
    rw [decstrCopied, place]
    rfl
  have digit : (dec % 10).toNat = dec.toNat := Nat.mod_eq_of_lt small
  have written := putDigit_save strUni (digitGroup 0) (dec % 10)
    (show 1 < 4 by decide)
  have digits : unicodeDecimal dec.toNat = digitGroup dec.toNat :=
    unicodeDecimal_digit small
  rw [digit] at written
  rw [uint16ToUnicodeDecstr, place, copied, (load_zerosTemplate around).1,
    digits, if_pos rfl]
  exact congrArg (Prod.mk 4) written

theorem decstr_twoDigits (large : 10 ≤ dec) (small : dec < 100) :
    uint16ToUnicodeDecstr around strUni dec =
      (8, save strUni 0 (unicodeDecimal dec.toNat)) := by
  have place : decimalPlace dec = 1 := by
    rw [decimalPlace_eq, if_neg (UInt16.not_lt.mpr large), if_pos small]
  have copied : decstrCopied dec = 8 := by
    rw [decstrCopied, place]
    rfl
  have last := putDigit_save strUni (digitGroup 0 ++ digitGroup 0) (dec % 10)
    (show 5 < 8 by decide)
  have first := putDigit_save strUni
    (digitGroup 0 ++ digitGroup (dec % 10).toNat) (dec / 10)
    (show 1 < 8 by decide)
  have digits : unicodeDecimal dec.toNat =
      digitGroup (dec / 10).toNat ++ digitGroup (dec % 10).toNat :=
    unicodeDecimal_two large small
  rw [uint16ToUnicodeDecstr, place, copied, (load_zerosTemplate around).2,
    digits, if_neg (by decide), if_pos rfl, last]
  exact congrArg (Prod.mk 8) first

/-- From three digits on, the first two of them go into the place of the
second. -/
theorem decstr_second {leading : UInt16} (place : decimalPlace dec = 2 ∧
      leading = dec / 10 ∨ decimalPlace dec = 3 ∧ leading = dec / 100) :
    (uint16ToUnicodeDecstr around strUni dec).2 5 =
      leading.toUInt8 + 0x30 := by
  rcases place with ⟨place, rfl⟩ | ⟨place, rfl⟩
  · rw [uint16ToUnicodeDecstr, place]
    rfl
  · rw [uint16ToUnicodeDecstr, place]
    rfl

end

/-- The first two digits of a number of three or four. -/
theorem leadingDigits {dec : UInt16} (large : 100 ≤ dec.toNat)
    (small : dec.toNat < 10000) :
    ∃ leading : UInt16, ∃ rest,
      (decimalPlace dec = 2 ∧ leading = dec / 10 ∨
        decimalPlace dec = 3 ∧ leading = dec / 100) ∧
        10 ≤ leading.toNat ∧ leading.toNat < 100 ∧
        unicodeDecimal dec.toNat = unicodeDecimal leading.toNat ++ rest := by
  have notTwo : ¬dec < 100 := Nat.not_lt_of_le large
  have notOne : ¬dec < 10 := fun one => notTwo (Nat.lt_trans one (by decide))
  have further := unicodeDecimal_more (Nat.le_trans (by decide) large)
  have byTen : (dec / 10).toNat = dec.toNat / 10 := rfl
  have byHundred : (dec / 100).toNat = dec.toNat / 100 := rfl
  rw [decimalPlace_eq, if_neg notOne, if_neg notTwo]
  by_cases three : dec < 1000
  · have bound : dec.toNat < 1000 := three
    rw [if_pos three]
    refine ⟨dec / 10, digitGroup (dec.toNat % 10), .inl ⟨rfl, rfl⟩, ?_, ?_,
      further⟩
    · omega
    · omega
  · have bound : 1000 ≤ dec.toNat := Nat.le_of_not_lt three
    have four : dec < 10000 := small
    have evenFurther := unicodeDecimal_more (show 10 ≤ dec.toNat / 10 by omega)
    have hundred : dec.toNat / 10 / 10 = dec.toNat / 100 :=
      Nat.div_div_eq_div_mul _ _ _
    rw [evenFurther, hundred, List.append_assoc] at further
    rw [if_neg three, if_pos four]
    refine ⟨dec / 100, _, .inr ⟨rfl, rfl⟩, ?_, ?_, further⟩
    · omega
    · omega

theorem leading_ne_second {leading : Nat} (large : 10 ≤ leading)
    (small : leading < 100) :
    UInt8.ofNat leading + 0x30 ≠ UInt8.ofNat (leading % 10) + 0x30 := by
  intro same
  have equal := congrArg UInt8.toNat ((UInt8.add_left_inj 0x30).mp same)
  rw [UInt8.toNat_ofNat_of_lt' (show leading < 2 ^ 8 by omega),
    UInt8.toNat_ofNat_of_lt' (show leading % 10 < 2 ^ 8 by omega)] at equal
  omega

theorem decstrCopied_large {dec : UInt16} (large : 10000 ≤ dec.toNat) :
    16 < decstrCopied dec := by
  have notFour : ¬dec < 10000 := Nat.not_lt_of_le large
  have notThree : ¬dec < 1000 := fun less =>
    notFour (Nat.lt_trans less (by decide))
  have notTwo : ¬dec < 100 := fun less =>
    notFour (Nat.lt_trans less (by decide))
  have notOne : ¬dec < 10 := fun less =>
    notFour (Nat.lt_trans less (by decide))
  rw [decstrCopied, decimalPlace_eq, if_neg notOne, if_neg notTwo,
    if_neg notThree, if_neg notFour]
  split
  · decide
  · decide

theorem printsDecimal_of_written {around strUni : Store UInt8} {dec : UInt16}
    {length : UInt8}
    (written : uint16ToUnicodeDecstr around strUni dec =
      (length, save strUni 0 (unicodeDecimal dec.toNat)))
    (digits : (unicodeDecimal dec.toNat).length = length.toNat)
    (inside : decstrCopied dec ≤ 16) : PrintsDecimal around strUni dec := by
  constructor
  · rw [written]
    rfl
  · rw [written, ← length_unicodeDecimal]
    exact digits.symm
  · exact inside

/-- The function prints the numbers of one and two digits and no others. -/
theorem decstr_prints_iff (around strUni : Store UInt8) (dec : UInt16) :
    PrintsDecimal around strUni dec ↔ dec < 100 := by
  constructor
  · intro prints
    by_contra notTwo
    have large : 100 ≤ dec.toNat := Nat.le_of_not_lt notTwo
    rcases Nat.lt_or_ge dec.toNat 10000 with small | past
    · obtain ⟨leading, rest, place, ten, hundred, text⟩ :=
        leadingDigits large small
      have written := decstr_second around strUni place
      have second := unicodeDecimal_second ten hundred rest
      have inside : 5 < (unicodeDecimal dec.toNat).length := by
        have groups : 5 < 4 + (4 + rest.length) := by omega
        rw [text, unicodeDecimal_two ten hundred, List.append_assoc,
          List.length_append, List.length_append]
        exact groups
      have stored := @save_inside _ strUni 0 _ 5 inside
      rw [← text, byteAt_of_lt inside] at second
      rw [prints.text] at written
      apply leading_ne_second ten hundred
      exact written.symm.trans (stored.trans second)
    · exact absurd prints.inside (Nat.not_le_of_lt (decstrCopied_large past))
  · intro small
    by_cases one : dec < 10
    · have digits : unicodeDecimal dec.toNat = digitGroup dec.toNat :=
        unicodeDecimal_digit one
      apply printsDecimal_of_written (decstr_oneDigit around strUni one)
      · rw [digits]
        rfl
      · rw [decstrCopied, decimalPlace_eq, if_pos one]
        decide
    · have ten : 10 ≤ dec := UInt16.not_lt.mp one
      have digits : unicodeDecimal dec.toNat =
          digitGroup (dec.toNat / 10) ++ digitGroup (dec.toNat % 10) :=
        unicodeDecimal_two ten small
      apply printsDecimal_of_written (decstr_twoDigits around strUni ten small)
      · rw [digits]
        rfl
      · rw [decstrCopied, decimalPlace_eq, if_neg one, if_pos small]
        decide

/-- 123 is written as `1`, `<` and `3`. -/
theorem decstr_hundreds :
    ¬PrintsDecimal (fun _ => 0) (fun _ => 0) 123 ∧
      load (uint16ToUnicodeDecstr (fun _ => 0) (fun _ => 0) 123).2 0 12 =
        ascii "31003<003300" := by
  have written : load (uint16ToUnicodeDecstr (fun _ => 0) (fun _ => 0) 123).2 0
      12 = ascii "31003<003300" := by decide
  have expected : load (save (fun _ => 0) 0 (hexChars (utf16leDecimal 123))) 0
      12 = ascii "310032003300" := by decide
  refine ⟨?_, written⟩
  intro prints
  have same := congrArg (fun text => load text 0 12) prints.text
  exact absurd (written.symm.trans (same.trans expected)) (by decide)

end Tp79Boot
