import Tp79Boot.Lib.ByteStore
import Tp79Boot.Display.FontLookup

/-!
# The glyphs in the font ROM

A wide character is found by its row and its cell in a table of 94 columns;
some rows of the code have no place in the table, and the rows behind them are
moved up.  The four tables lie one behind the other in the ROM.
-/

namespace Tp79Boot

open ByteStore

/-- Two reads have no address in common. -/
def FontRead.Apart (first second : FontRead) : Prop :=
  ByteStore.Apart first.addr.toNat first.datlen.toNat second.addr.toNat
    second.datlen.toNat

/-- The lookup of a character makes one read, of the size of a glyph and
between the bases of the table and the next one; different characters are read
from addresses apart. -/
structure GlyphsTile {α : Type} (characters : α → Prop) (lookup : α → Lookup)
    (datlen : UInt8) (base next : UInt32) : Prop where
  reads : ∀ character, characters character →
    ∃ read, (lookup character).reads = [read] ∧ read.datlen = datlen ∧
      base.toNat ≤ read.addr.toNat ∧
      read.addr.toNat + datlen.toNat ≤ next.toNat
  apart : ∀ first second, characters first → characters second →
    first ≠ second → ∀ read ∈ (lookup first).reads,
      ∀ other ∈ (lookup second).reads, read.Apart other

/-- A lookup that reads glyph `number` of a table, where no two characters
have one number. -/
theorem glyphsTile_of_number {α : Type} {characters : α → Prop}
    {lookup : α → Lookup} {datlen : UInt8} {base next : UInt32}
    (number : α → Nat) {count : Nat}
    (looksUp : ∀ character, characters character →
      ∃ read, (lookup character).reads = [read] ∧ read.datlen = datlen ∧
        read.addr.toNat = base.toNat + number character * datlen.toNat)
    (counted : ∀ character, characters character → number character < count)
    (different : ∀ first second, characters first → characters second →
      number first = number second → first = second)
    (room : base.toNat + count * datlen.toNat ≤ next.toNat) :
    GlyphsTile characters lookup datlen base next := by
  constructor
  · intro character member
    obtain ⟨read, reads, size, place⟩ := looksUp character member
    have last : (number character + 1) * datlen.toNat ≤ count * datlen.toNat :=
      Nat.mul_le_mul_right _ (counted character member)
    rw [Nat.add_mul] at last
    refine ⟨read, reads, size, ?_, ?_⟩
    · omega
    · omega
  · intro first second firstMember secondMember apart read mem other otherMem
    obtain ⟨firstRead, firstReads, firstSize, firstPlace⟩ :=
      looksUp first firstMember
    obtain ⟨secondRead, secondReads, secondSize, secondPlace⟩ :=
      looksUp second secondMember
    rw [firstReads, List.mem_singleton] at mem
    rw [secondReads, List.mem_singleton] at otherMem
    subst mem
    subst otherMem
    have numbers : number first ≠ number second := fun same =>
      apart (different first second firstMember secondMember same)
    unfold FontRead.Apart
    rw [firstPlace, secondPlace, firstSize, secondSize]
    exact slots_apart base.toNat datlen.toNat numbers

theorem glyphAddr_toNat {number size base : UInt32}
    (counted : number.toNat < 8192) (small : size.toNat ≤ 32)
    (room : base.toNat ≤ 0x100000) :
    (number * size + base).toNat = base.toNat + number.toNat * size.toNat := by
  have product : number.toNat * size.toNat ≤ 8192 * 32 :=
    Nat.mul_le_mul (Nat.le_of_lt counted) small
  rw [UInt32.toNat_add, UInt32.toNat_mul]
  omega

theorem fromFirst_toNat {byte : UInt8} {word : UInt32} {first : Nat}
    (value : word.toNat = first) (above : first ≤ byte.toNat) :
    (byte.toUInt32 - word).toNat = byte.toNat - first := by
  have less : word ≤ byte.toUInt32 := by
    rw [UInt32.le_iff_toNat_le, value]
    exact above
  rw [UInt32.toNat_sub_of_le _ _ less, value]
  rfl

section

variable {msb lsb : UInt8} {word : UInt32} {first : Nat}

theorem cellNumber_toNat (row : first ≤ msb.toNat) (cell : 0xA1 ≤ lsb)
    (value : word.toNat = first) :
    ((msb.toUInt32 - word) * 94 + (lsb.toUInt32 - 0xA1)).toNat =
      (msb.toNat - first) * 94 + (lsb.toNat - 0xA1) := by
  have msbRange := msb.toNat_lt
  have lsbRange := lsb.toNat_lt
  have column : (lsb.toUInt32 - 0xA1).toNat = lsb.toNat - 0xA1 :=
    fromFirst_toNat rfl cell
  have width : (94 : UInt32).toNat = 94 := rfl
  rw [UInt32.toNat_add, UInt32.toNat_mul, fromFirst_toNat value row, column,
    width]
  omega

theorem movedNumber_toNat {start : UInt32} {cells : Nat}
    (row : first ≤ msb.toNat) (cell : 0xA1 ≤ lsb) (value : word.toNat = first)
    (moved : start.toNat = cells) (small : cells < 1024) :
    ((msb.toUInt32 - word) * 94 + (lsb.toUInt32 - 0xA1) + start).toNat =
      (msb.toNat - first) * 94 + (lsb.toNat - 0xA1) + cells := by
  have msbRange := msb.toNat_lt
  have lsbRange := lsb.toNat_lt
  rw [UInt32.toNat_add, cellNumber_toNat row cell value, moved]
  omega

end

def narrowNumber (ascii : UInt8) : Nat := ascii.toNat - 0x20

theorem narrowNumber_lt {ascii : UInt8} (narrow : NarrowChar ascii) :
    narrowNumber ascii < 95 := by
  have last : ascii.toNat ≤ 0x7E := narrow.2
  unfold narrowNumber
  omega

theorem narrowNumber_injective {first second : UInt8}
    (narrow : NarrowChar first) (other : NarrowChar second)
    (same : narrowNumber first = narrowNumber second) : first = second := by
  have firstLow : 0x20 ≤ first.toNat := narrow.1
  have secondLow : 0x20 ≤ second.toNat := other.1
  unfold narrowNumber at same
  apply UInt8.toNat_inj.mp
  omega

theorem narrowAddr_toNat {ascii : UInt8} (narrow : NarrowChar ascii)
    {size base : UInt32} (small : size.toNat ≤ 32)
    (room : base.toNat ≤ 0x100000) :
    ((ascii.toUInt32 - 0x20) * size + base).toNat =
      base.toNat + narrowNumber ascii * size.toNat := by
  have number : (ascii.toUInt32 - 0x20).toNat = narrowNumber ascii :=
    fromFirst_toNat rfl narrow.1
  have counted := narrowNumber_lt narrow
  rw [← number]
  apply glyphAddr_toNat
  · omega
  · exact small
  · exact room

theorem ascii8x16_tile (offset : Nat) :
    GlyphsTile NarrowChar (gt21l16s2GetAscii8x16 offset) 16 addrAscii8x16
      addrBase11x16 := by
  apply glyphsTile_of_number narrowNumber
  · intro ascii narrow
    refine ⟨{ addr := (ascii.toUInt32 - 0x20) * 16 + addrAscii8x16
              offset := offset
              datlen := 16 }, ?_, rfl, ?_⟩
    · rw [gt21l16s2GetAscii8x16, if_pos narrow]
    · exact narrowAddr_toNat narrow (by decide) (by decide)
  · exact fun _ => narrowNumber_lt
  · exact fun _ _ => narrowNumber_injective
  · decide

theorem ascii6x12_tile :
    GlyphsTile NarrowChar gt21l16s2GetAscii6x12 12 addrAscii8x12
      addrUnicodeToGb2312 := by
  apply glyphsTile_of_number narrowNumber
  · intro ascii narrow
    refine ⟨{ addr := (ascii.toUInt32 - 0x20) * 12 + addrAscii8x12
              offset := 0
              datlen := 12 }, ?_, rfl, ?_⟩
    · rw [gt21l16s2GetAscii6x12, if_pos narrow]
    · exact narrowAddr_toNat narrow (by decide) (by decide)
  · exact fun _ => narrowNumber_lt
  · exact fun _ _ => narrowNumber_injective
  · decide

/-- A code of two bytes, the row and the cell. -/
structure WideChar where
  msb : UInt8
  lsb : UInt8

/-- The rows that have a place of their own in the table of fifteen by
sixteen; those from `0xA4` to `0xA8` share the first glyph. -/
def OwnRow15x16 (msb : UInt8) : Prop :=
  WideRow15x16 msb ∧ ¬(0xA4 ≤ msb ∧ msb ≤ 0xA8)

def WideCell (lsb : UInt8) : Prop :=
  0xA1 ≤ lsb ∧ lsb ≤ 0xFE

/-- The characters with a glyph of their own in the font of fifteen by
sixteen. -/
def OwnGlyph15x16 (code : WideChar) : Prop :=
  OwnRow15x16 code.msb ∧ WideCell code.lsb

/-- The characters with a glyph of their own in the font of eleven by
twelve. -/
def OwnGlyph11x12 (code : WideChar) : Prop :=
  WideRow11x12 code.msb ∧ WideCell code.lsb

/-- The rows of the table, without the codes between `0xA9` and `0xB0`. -/
def glyphRow15x16 (msb : UInt8) : Nat :=
  if msb ≤ 0xA9 then msb.toNat - 0xA1 else msb.toNat - 0xB0 + 9

/-- The rows of the table, without the codes between `0xA3` and `0xA9` and
between `0xA9` and `0xB0`. -/
def glyphRow11x12 (msb : UInt8) : Nat :=
  if msb ≤ 0xA3 then msb.toNat - 0xA1
  else if msb = 0xA9 then 3
  else msb.toNat - 0xB0 + 4

/-- A table has 94 columns. -/
def glyphNumber (row : UInt8 → Nat) (code : WideChar) : Nat :=
  row code.msb * 94 + (code.lsb.toNat - 0xA1)

theorem glyphNumber_lt {row : UInt8 → Nat} {code : WideChar} {rows : Nat}
    (inside : row code.msb < rows) (cell : WideCell code.lsb) :
    glyphNumber row code < rows * 94 := by
  have last : code.lsb.toNat ≤ 0xFE := cell.2
  unfold glyphNumber
  omega

theorem glyphNumber_injective {row : UInt8 → Nat} {rows : UInt8 → Prop}
    (apart : ∀ first second, rows first → rows second →
      row first = row second → first = second)
    {first second : WideChar} (firstRow : rows first.msb)
    (secondRow : rows second.msb) (firstCell : WideCell first.lsb)
    (secondCell : WideCell second.lsb)
    (same : glyphNumber row first = glyphNumber row second) :
    first = second := by
  have firstLow : 0xA1 ≤ first.lsb.toNat := firstCell.1
  have firstLast : first.lsb.toNat ≤ 0xFE := firstCell.2
  have secondLow : 0xA1 ≤ second.lsb.toNat := secondCell.1
  have secondLast : second.lsb.toNat ≤ 0xFE := secondCell.2
  unfold glyphNumber at same
  have rowsSame : row first.msb = row second.msb := by omega
  have cellsSame : first.lsb = second.lsb := by
    apply UInt8.toNat_inj.mp
    omega
  cases first with
  | mk firstMsb firstLsb =>
      cases second with
      | mk secondMsb secondLsb =>
          cases apart _ _ firstRow secondRow rowsSame
          cases cellsSame
          rfl

theorem wideAddr_toNat {row : UInt8 → Nat} {code : WideChar} {rows : Nat}
    {number size base : UInt32} (same : number.toNat = glyphNumber row code)
    (inside : row code.msb < rows) (few : rows ≤ 87) (cell : WideCell code.lsb)
    (small : size.toNat ≤ 32) (room : base.toNat ≤ 0x100000) :
    (number * size + base).toNat =
      base.toNat + glyphNumber row code * size.toNat := by
  have counted := glyphNumber_lt inside cell
  rw [← same]
  apply glyphAddr_toNat
  · omega
  · exact small
  · exact room

theorem glyphRow15x16_cases {msb : UInt8} (row : WideRow15x16 msb) :
    glyphRow15x16 msb = msb.toNat - 0xA1 ∧ 0xA1 ≤ msb.toNat ∧
        msb.toNat ≤ 0xA9 ∨
      glyphRow15x16 msb = msb.toNat - 0xB0 + 9 ∧ 0xB0 ≤ msb.toNat ∧
        msb.toNat ≤ 0xF7 := by
  rcases row with low | high
  · exact .inl ⟨if_pos low.2, low.1, low.2⟩
  · have notLow : ¬msb ≤ 0xA9 := fun low =>
      absurd (Nat.le_trans high.1 low) (by decide)
    exact .inr ⟨if_neg notLow, high.1, high.2⟩

theorem glyphRow11x12_cases {msb : UInt8} (row : WideRow11x12 msb) :
    glyphRow11x12 msb = msb.toNat - 0xA1 ∧ 0xA1 ≤ msb.toNat ∧
        msb.toNat ≤ 0xA3 ∨
      glyphRow11x12 msb = 3 ∧ msb.toNat = 0xA9 ∨
      glyphRow11x12 msb = msb.toNat - 0xB0 + 4 ∧ 0xB0 ≤ msb.toNat ∧
        msb.toNat ≤ 0xF7 := by
  rcases row with low | frame | high
  · exact .inl ⟨if_pos low.2, low.1, low.2⟩
  · subst frame
    exact .inr (.inl ⟨rfl, rfl⟩)
  · have notLow : ¬msb ≤ 0xA3 := fun low =>
      absurd (Nat.le_trans high.1 low) (by decide)
    have notFrame : msb ≠ 0xA9 := fun frame =>
      absurd (frame ▸ high.1) (by decide)
    have behind : glyphRow11x12 msb = msb.toNat - 0xB0 + 4 := by
      rw [glyphRow11x12, if_neg notLow, if_neg notFrame]
    exact .inr (.inr ⟨behind, high.1, high.2⟩)

theorem glyphRow15x16_lt {msb : UInt8} (row : WideRow15x16 msb) :
    glyphRow15x16 msb < 81 := by
  rcases glyphRow15x16_cases row with low | high
  · omega
  · omega

theorem glyphRow11x12_lt {msb : UInt8} (row : WideRow11x12 msb) :
    glyphRow11x12 msb < 76 := by
  rcases glyphRow11x12_cases row with low | frame | high
  · omega
  · omega
  · omega

theorem glyphRow15x16_injective (first second : UInt8)
    (firstRow : WideRow15x16 first) (secondRow : WideRow15x16 second)
    (same : glyphRow15x16 first = glyphRow15x16 second) : first = second := by
  apply UInt8.toNat_inj.mp
  have firstPlace := glyphRow15x16_cases firstRow
  have secondPlace := glyphRow15x16_cases secondRow
  omega

theorem glyphRow11x12_injective (first second : UInt8)
    (firstRow : WideRow11x12 first) (secondRow : WideRow11x12 second)
    (same : glyphRow11x12 first = glyphRow11x12 second) : first = second := by
  apply UInt8.toNat_inj.mp
  have firstPlace := glyphRow11x12_cases firstRow
  have secondPlace := glyphRow11x12_cases secondRow
  omega

section

variable {stale : UInt32} {code : WideChar}

/-- Outside these rows, the address is left to the lookups of two narrow
characters. -/
theorem gb231215x16_pair (narrow : ¬WideRow15x16 code.msb) :
    gt21l16s2GetGb231215x16 stale code.msb code.lsb =
      getAsciiPair stale 32 code.msb code.lsb := by
  have notBlank : ¬(0xA4 ≤ code.msb ∧ code.msb ≤ 0xA8 ∧ 0xA1 ≤ code.lsb) :=
    fun blank => narrow (.inl ⟨UInt8.le_trans (by decide) blank.1,
      UInt8.le_trans blank.2.1 (by decide)⟩)
  rw [gt21l16s2GetGb231215x16, if_neg notBlank,
    if_neg fun low => narrow (.inl ⟨low.1, low.2.1⟩),
    if_neg fun high => narrow (.inr ⟨high.1, high.2.1⟩)]

theorem gb231211x12_pair (narrow : ¬WideRow11x12 code.msb) :
    gt21l16s2GetGb231211x12 stale code.msb code.lsb =
      getAsciiPair stale 24 code.msb code.lsb := by
  rw [gt21l16s2GetGb231211x12,
    if_neg fun low => narrow (.inl ⟨low.1, low.2.1⟩),
    if_neg fun frame => narrow (.inr (.inl frame.1)),
    if_neg fun high => narrow (.inr (.inr ⟨high.1, high.2.1⟩))]

/-- Number 846 begins the tenth row. -/
theorem lookup15x16 (row : OwnRow15x16 code.msb) (cell : WideCell code.lsb) :
    ∃ number : UInt32, number.toNat = glyphNumber glyphRow15x16 code ∧
      (gt21l16s2GetGb231215x16 stale code.msb code.lsb).reads =
        [{ addr := number * 32 + addrBase15x16, offset := 0, datlen := 32 }] := by
  have notBlank : ¬(0xA4 ≤ code.msb ∧ code.msb ≤ 0xA8 ∧ 0xA1 ≤ code.lsb) :=
    fun blank => row.2 ⟨blank.1, blank.2.1⟩
  have place := glyphRow15x16_cases row.1
  rcases row.1 with low | high
  · have above : 0xA1 ≤ code.msb.toNat := low.1
    have last : code.msb.toNat ≤ 0xA9 := low.2
    refine ⟨(code.msb.toUInt32 - 0xA1) * 94 + (code.lsb.toUInt32 - 0xA1),
      ?_, ?_⟩
    · apply (cellNumber_toNat above cell.1 rfl).trans
      unfold glyphNumber
      omega
    · rw [gt21l16s2GetGb231215x16, if_neg notBlank,
        if_pos ⟨low.1, low.2, cell.1⟩]
  · have above : 0xB0 ≤ code.msb.toNat := high.1
    have notLow : ¬(0xA1 ≤ code.msb ∧ code.msb ≤ 0xA9 ∧ 0xA1 ≤ code.lsb) :=
      fun low => absurd (Nat.le_trans high.1 low.2.1) (by decide)
    have moved : (846 : UInt32).toNat = 9 * 94 := rfl
    refine ⟨(code.msb.toUInt32 - 0xB0) * 94 + (code.lsb.toUInt32 - 0xA1) + 846,
      ?_, ?_⟩
    · apply (movedNumber_toNat above cell.1 rfl moved (by decide)).trans
      unfold glyphNumber
      omega
    · rw [gt21l16s2GetGb231215x16, if_neg notBlank, if_neg notLow,
        if_pos ⟨high.1, high.2, cell.1⟩]

/-- Number 282 begins the fourth row, and number 376 the fifth. -/
theorem lookup11x12 (row : WideRow11x12 code.msb) (cell : WideCell code.lsb) :
    ∃ number : UInt32, number.toNat = glyphNumber glyphRow11x12 code ∧
      (gt21l16s2GetGb231211x12 stale code.msb code.lsb).reads =
        [{ addr := number * 24 + addrBase11x16, offset := 0, datlen := 24 }] := by
  have place := glyphRow11x12_cases row
  have lsbRange := code.lsb.toNat_lt
  rcases row with low | frame | high
  · have above : 0xA1 ≤ code.msb.toNat := low.1
    have last : code.msb.toNat ≤ 0xA3 := low.2
    refine ⟨(code.msb.toUInt32 - 0xA1) * 94 + (code.lsb.toUInt32 - 0xA1),
      ?_, ?_⟩
    · apply (cellNumber_toNat above cell.1 rfl).trans
      unfold glyphNumber
      omega
    · rw [gt21l16s2GetGb231211x12, if_pos ⟨low.1, low.2, cell.1⟩]
  · have notLow : ¬(0xA1 ≤ code.msb ∧ code.msb ≤ 0xA3 ∧ 0xA1 ≤ code.lsb) :=
      fun low => absurd (frame ▸ low.2.1) (by decide)
    have column : (code.lsb.toUInt32 - 0xA1).toNat = code.lsb.toNat - 0xA1 :=
      fromFirst_toNat rfl cell.1
    have here : code.msb.toNat = 0xA9 := congrArg UInt8.toNat frame
    have third : (282 : UInt32).toNat = 3 * 94 := rfl
    refine ⟨282 + (code.lsb.toUInt32 - 0xA1), ?_, ?_⟩
    · rw [UInt32.toNat_add, column, third]
      unfold glyphNumber
      omega
    · rw [gt21l16s2GetGb231211x12, if_neg notLow, if_pos ⟨frame, cell.1⟩]
  · have above : 0xB0 ≤ code.msb.toNat := high.1
    have notLow : ¬(0xA1 ≤ code.msb ∧ code.msb ≤ 0xA3 ∧ 0xA1 ≤ code.lsb) :=
      fun low => absurd (Nat.le_trans high.1 low.2.1) (by decide)
    have notFrame : ¬(code.msb = 0xA9 ∧ 0xA1 ≤ code.lsb) :=
      fun frame => absurd (frame.1 ▸ high.1) (by decide)
    have moved : (376 : UInt32).toNat = 4 * 94 := rfl
    refine ⟨(code.msb.toUInt32 - 0xB0) * 94 + (code.lsb.toUInt32 - 0xA1) + 376,
      ?_, ?_⟩
    · apply (movedNumber_toNat above cell.1 rfl moved (by decide)).trans
      unfold glyphNumber
      omega
    · rw [gt21l16s2GetGb231211x12, if_neg notLow, if_neg notFrame,
        if_pos ⟨high.1, high.2, cell.1⟩]

variable (stale) in
theorem gb231215x16_tile :
    GlyphsTile OwnGlyph15x16
      (fun code : WideChar => gt21l16s2GetGb231215x16 stale code.msb code.lsb) 32
      addrBase15x16 addrAscii8x16 := by
  apply glyphsTile_of_number (glyphNumber glyphRow15x16)
  · intro code own
    obtain ⟨row, cell⟩ := own
    obtain ⟨number, same, reads⟩ := @lookup15x16 stale code row cell
    refine ⟨_, reads, rfl, ?_⟩
    exact wideAddr_toNat same (glyphRow15x16_lt row.1) (by decide) cell
      (by decide) (by decide)
  · rintro code ⟨row, cell⟩
    exact glyphNumber_lt (glyphRow15x16_lt row.1) cell
  · rintro first second ⟨firstRow, firstCell⟩ ⟨secondRow, secondCell⟩ same
    exact glyphNumber_injective glyphRow15x16_injective firstRow.1 secondRow.1
      firstCell secondCell same
  · decide

variable (stale) in
theorem gb231211x12_tile :
    GlyphsTile OwnGlyph11x12
      (fun code : WideChar => gt21l16s2GetGb231211x12 stale code.msb code.lsb) 24
      addrBase11x16 addrAscii8x12 := by
  apply glyphsTile_of_number (glyphNumber glyphRow11x12)
  · rintro code ⟨row, cell⟩
    obtain ⟨number, same, reads⟩ := @lookup11x12 stale code row cell
    refine ⟨_, reads, rfl, ?_⟩
    exact wideAddr_toNat same (glyphRow11x12_lt row) (by decide) cell
      (by decide) (by decide)
  · rintro code ⟨row, cell⟩
    exact glyphNumber_lt (glyphRow11x12_lt row) cell
  · rintro first second ⟨firstRow, firstCell⟩ ⟨secondRow, secondCell⟩ same
    exact glyphNumber_injective glyphRow11x12_injective firstRow secondRow
      firstCell secondCell same
  · decide

end

/-- The glyphs of a font lie apart, and before the next font.  The wide
characters are those whose address the lookup computes itself. -/
theorem glyphWindows_tile (stale : UInt32) (offset : Nat) :
    GlyphsTile OwnGlyph15x16
        (fun code : WideChar => gt21l16s2GetGb231215x16 stale code.msb code.lsb) 32
        addrBase15x16 addrAscii8x16 ∧
      GlyphsTile NarrowChar (gt21l16s2GetAscii8x16 offset) 16 addrAscii8x16
        addrBase11x16 ∧
      GlyphsTile OwnGlyph11x12
        (fun code : WideChar => gt21l16s2GetGb231211x12 stale code.msb code.lsb) 24
        addrBase11x16 addrAscii8x12 ∧
      GlyphsTile NarrowChar gt21l16s2GetAscii6x12 12 addrAscii8x12
        addrUnicodeToGb2312 := by
  refine ⟨?_, ?_, ?_, ?_⟩
  · exact gb231215x16_tile stale
  · exact ascii8x16_tile offset
  · exact gb231211x12_tile stale
  · exact ascii6x12_tile

end Tp79Boot
