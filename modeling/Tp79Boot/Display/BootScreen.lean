import Tp79Boot.Display.BootText
import Tp79Boot.Display.Panel

/-!
# The text of the boot loader on the display

The cells of a text are painted one after another.  The dots of a character
are those of the glyph in the font ROM that its lookup reads; those of a narrow
character of fifteen by sixteen are three rows lower, with three blank rows
above.  The buffer of a character may still hold bytes of the one before it,
but none of these is painted.
-/

namespace Tp79Boot

open EventRun Raster WhileLoop WindowedPanel

/-- The steps of `lcd_disp_bit1bmp_SingleByte` for a block. -/
def LcdBlock.steps (block : LcdBlock) : List LcdStep :=
  nv3021DispBit1bmpSingleByte (byteAt block.bmp) block.x block.y block.width
    block.height block.colorData block.backColor

def Cell.steps (cell : Cell) : List LcdStep :=
  cell.upper.steps ++ cell.lower.steps

/-- A dot of the glyph that a lookup reads; its bands are `width` bytes. -/
def Lookup.dot (rom : Nat → UInt8) (lookup : Lookup) (width i j : Nat) :
    Bool :=
  lookup.reads.any fun read =>
    (rom (read.addr.toNat % 2 ^ 24 + bandOffset width i j)).toNat.testBit
      (i % 8)

/-- How a character is drawn. -/
def Font.face (font : Font) (character : Character) : Face :=
  if character.bytes = 1 then font.narrow else font.wide

def Face.rows (face : Face) : Nat :=
  8 + face.lowerHeight.toNat

section

-- The font ROM, and what the variable `addr` of a lookup held before.
variable (rom : Nat → UInt8) (stale : UInt32)
-- By how many rows the glyphs of narrow characters are lowered.
variable (font : Font) (lowered : Nat)
variable (x y : Nat) (gb2312Dat : List UInt8) (blackColor textColor : UInt16)

def textDot (character : Character) (i j : Nat) : Bool :=
  let byte := byteAt gb2312Dat character.index
  if character.bytes = 1 then
    decide (lowered ≤ i) &&
      (font.getAscii byte).dot rom font.narrow.width.toNat (i - lowered) j
  else
    (font.getGb2312 stale byte (byteAt gb2312Dat (character.index + 1))).dot
      rom font.wide.width.toNat i j

def textPixel (character : Character) (i j : Nat) : UInt16 :=
  if textDot rom stale font lowered gb2312Dat character i j then textColor
  else blackColor

/-- The pixel belongs to the character. -/
def Character.Covers (character : Character) (column row : Nat) : Prop :=
  Inside (character.place x font.step).left y
    (character.place x font.step).width (font.face character).rows column row

instance (character : Character) (column row : Nat) :
    Decidable (character.Covers font x y column row) :=
  inferInstanceAs (Decidable (Inside _ _ _ _ _ _))

/-- The characters of a string that fit are on the display, and all other
pixels are as they were. -/
structure ShowsText (wideRow : UInt8 → Bool)
    (before after : Nat → Nat → UInt16) :
    Prop where
  shown : ∀ character ∈ charactersFrom wideRow 0 (cString gb2312Dat),
    (character.place x font.step).Fits →
      ∀ column row, character.Covers font x y column row →
        after column row =
          textPixel rom stale font lowered gb2312Dat blackColor textColor
            character (row - y) (column - (character.place x font.step).left)
  kept : ∀ column row,
    (∀ character ∈ charactersFrom wideRow 0 (cString gb2312Dat),
      (character.place x font.step).Fits →
        ¬ character.Covers font x y column row) →
      after column row = before column row

end

/-- The bands of a buffer hold the dots of a face. -/
structure HoldsGlyph (dispBuf : List UInt8) (face : Face)
    (dot : Nat → Nat → Bool) : Prop where
  size : dispBuf.length = 32
  dots : ∀ i < face.rows, ∀ j < face.width.toNat,
    (byteAt dispBuf (bandOffset face.width.toNat i j)).toNat.testBit (i % 8) =
      dot i j

theorem fill_whole (rom : Nat → UInt8) {lookup : Lookup} {addr : UInt32}
    {datlen : UInt8} {dispBuf : List UInt8}
    (reads : lookup.reads = [{ addr := addr, offset := 0, datlen := datlen }])
    (fits : datlen.toNat ≤ 32) (size : dispBuf.length = 32) :
    (lookup.fill rom dispBuf).length = 32 ∧
      ∀ place < datlen.toNat,
        byteAt (lookup.fill rom dispBuf) place =
          rom (addr.toNat % 2 ^ 24 + place) := by
  have filled : lookup.fill rom dispBuf =
      (List.range datlen.toNat).map
          (fun index => rom (addr.toNat % 2 ^ 24 + index)) ++
        dispBuf.drop datlen.toNat := by
    simp [Lookup.fill, reads, writeAt, FontRead.bytes]
  rw [filled]
  constructor
  · rw [List.length_append, List.length_map, List.length_range,
      List.length_drop, size]
    omega
  · intro place inside
    have front : place < ((List.range datlen.toNat).map
        fun index => rom (addr.toNat % 2 ^ 24 + index)).length := by
      rwa [List.length_map, List.length_range]
    rw [byteAt_append_left front, byteAt_of_lt front, List.getElem_map,
      List.getElem_range]

theorem bandOffset_face {face : Face} (rows : face.rows ≤ 16) {i j : Nat}
    (below : i < face.rows) (within : j < face.width.toNat) :
    bandOffset face.width.toNat i j < 2 * face.width.toNat :=
  calc
    j + i / 8 * face.width.toNat
        < face.width.toNat + i / 8 * face.width.toNat :=
      Nat.add_lt_add_right within _
    _ = (i / 8 + 1) * face.width.toNat := by
      rw [Nat.add_mul, Nat.one_mul, Nat.add_comm]
    _ ≤ 2 * face.width.toNat := by
      apply Nat.mul_le_mul_right
      omega

/-- A lookup that finds a character reads one glyph, to the start of the
buffer; one that does not reads nothing. -/
def OneGlyph (datlen : UInt8) (lookup : Lookup) : Prop :=
  (∃ addr, lookup.found = true ∧
      lookup.reads = [{ addr := addr, offset := 0, datlen := datlen }]) ∨
    lookup = .missing

section

variable {datlen : UInt8} {lookup : Lookup}

theorem OneGlyph.holdsGlyph (glyph : OneGlyph datlen lookup)
    (found : lookup.found = true) (fits : datlen.toNat ≤ 32) {face : Face}
    (rows : face.rows ≤ 16) (room : 2 * face.width.toNat ≤ datlen.toNat)
    (rom : Nat → UInt8) {dispBuf : List UInt8} (size : dispBuf.length = 32) :
    HoldsGlyph (lookup.fill rom dispBuf) face
      (lookup.dot rom face.width.toNat) := by
  rcases glyph with ⟨addr, _, reads⟩ | rfl
  · obtain ⟨length, bytes⟩ := fill_whole rom reads fits size
    constructor
    · exact length
    · intro i below j within
      have inside := bandOffset_face rows below within
      rw [bytes _ (Nat.lt_of_lt_of_le inside room), Lookup.dot, reads,
        List.any_cons, List.any_nil, Bool.or_false]
  · cases found

theorem OneGlyph.fill_missing (glyph : OneGlyph datlen lookup)
    (missing : lookup.found = false) (rom : Nat → UInt8)
    (dispBuf : List UInt8) : lookup.fill rom dispBuf = dispBuf := by
  rcases glyph with ⟨addr, found, _⟩ | rfl
  · rw [found] at missing
    cases missing
  · rfl

end

theorem byteAt_set (memory : List UInt8) (place : Nat) (byte : UInt8)
    (offset : Nat) :
    byteAt (memory.set place byte) offset =
      if place = offset ∧ offset < memory.length then byte
      else byteAt memory offset := by
  rw [byteAt, byteAt, List.getD_eq_getElem?_getD, List.getD_eq_getElem?_getD,
    List.getElem?_set]
  by_cases here : place = offset
  · subst here
    by_cases inside : place < memory.length
    · simp [inside]
    · simp [inside]
  · simp [here]

/-- The turns of the loop move the bytes of the first columns. -/
theorem moveUp_bytes {dispBuf : List UInt8} (size : dispBuf.length = 32)
    {turns : Nat} (within : turns ≤ 8) :
    ((List.range turns).foldl moveUp dispBuf).length = 32 ∧
      ∀ place, byteAt ((List.range turns).foldl moveUp dispBuf) place =
        if place < turns then byteAt dispBuf place <<< 3 &&& 0xF8
        else if 8 ≤ place ∧ place < 8 + turns then
          byteAt dispBuf place <<< 3 |||
            (byteAt dispBuf (place - 8) >>> 5 &&& 0x07)
        else byteAt dispBuf place := by
  induction turns with
  | zero =>
      refine ⟨size, ?_⟩
      intro place
      rw [if_neg (Nat.not_lt_zero place), if_neg (by omega)]
      rfl
  | succ turns induction =>
      obtain ⟨length, bytes⟩ := induction (Nat.le_of_succ_le within)
      rw [List.range_succ, List.foldl_append, List.foldl_cons, List.foldl_nil]
      have upper := bytes turns
      have lower := bytes (turns + 8)
      rw [if_neg (by omega), if_neg (by omega)] at upper lower
      constructor
      · rw [moveUp, List.length_set, List.length_set, length]
      · intro place
        simp only [moveUp, upper, lower, byteAt_set, List.length_set, length]
        rcases Nat.lt_trichotomy place turns with before | rfl | behind
        · rw [if_neg (by omega), if_neg (by omega), bytes, if_pos before,
            if_pos (by omega)]
        · rw [if_pos (by omega), if_pos (by omega)]
        · rw [if_neg (by omega)]
          by_cases here : place = turns + 8
          · subst here
            rw [if_pos (by omega), if_neg (by omega), if_pos (by omega),
              Nat.add_sub_cancel]
          · have same : (8 ≤ place ∧ place < 8 + (turns + 1)) ↔
                (8 ≤ place ∧ place < 8 + turns) := by
              omega
            have notBefore : ¬ place < turns := by omega
            have notUpper : ¬ place < turns + 1 := by omega
            rw [if_neg (by omega), bytes, if_neg notBefore, if_neg notUpper]
            simp only [same]

/-- The column of two bytes is moved down by three rows. -/
theorem loweredBits (upper lower : UInt8) {bit : Nat} (small : bit < 8) :
    (upper <<< 3 &&& 0xF8).toNat.testBit bit =
        (decide (3 ≤ bit) && upper.toNat.testBit (bit - 3)) ∧
      (lower <<< 3 ||| (upper >>> 5 &&& 0x07)).toNat.testBit bit =
        if bit < 3 then upper.toNat.testBit (bit + 5)
        else lower.toNat.testBit (bit - 3) := by
  have three : (3 : UInt8).toNat % 8 = 3 := rfl
  have five : (5 : UInt8).toNat % 8 = 5 := rfl
  have high : (0xF8 : UInt8).toNat.testBit bit = decide (3 ≤ bit) := by
    revert bit
    decide
  have low : (0x07 : UInt8).toNat.testBit bit = decide (bit < 3) := by
    revert bit
    decide
  constructor
  · rw [UInt8.toNat_and, Nat.testBit_and, high, UInt8.toNat_shiftLeft, three,
      Nat.testBit_mod_two_pow, Nat.testBit_shiftLeft]
    by_cases blank : 3 ≤ bit
    · simp [blank, small]
    · simp [blank]
  · rw [UInt8.toNat_or, Nat.testBit_or, UInt8.toNat_and, Nat.testBit_and, low,
      UInt8.toNat_shiftLeft, UInt8.toNat_shiftRight, three, five,
      Nat.testBit_mod_two_pow, Nat.testBit_shiftLeft, Nat.testBit_shiftRight]
    by_cases blank : bit < 3
    · simp [blank, small, Nat.add_comm]
    · simp [blank, small]
      omega

/-- Arranging lowers the glyph of a narrow character. -/
theorem arranged_holdsGlyph {dispBuf : List UInt8} {dot : Nat → Nat → Bool}
    (glyph : HoldsGlyph dispBuf font15x16.narrow dot) :
    HoldsGlyph (font15x16.arrange dispBuf) font15x16.narrow
      fun i j => decide (3 ≤ i) && dot (i - 3) j := by
  obtain ⟨length, bytes⟩ := moveUp_bytes glyph.size (Nat.le_refl 8)
  have arranged : font15x16.arrange dispBuf =
      (List.range 8).foldl moveUp dispBuf := by
    rw [font15x16]
  rw [arranged]
  constructor
  · exact length
  · intro i below j within
    have wide : font15x16.narrow.width.toNat = 8 := rfl
    have rows : i < 16 := below
    have columns : j < 8 := within
    have original (row : Nat) (inside : row < 16) :
        (byteAt dispBuf (bandOffset 8 row j)).toNat.testBit (row % 8) =
          dot row j :=
      glyph.dots row inside j within
    rw [wide, bytes]
    rcases Nat.lt_or_ge i 8 with upper | lower
    · have place : bandOffset 8 i j = j := by
        unfold bandOffset
        omega
      have bit : i % 8 = i := Nat.mod_eq_of_lt upper
      rw [place, if_pos columns, bit, (loweredBits _ 0 upper).1]
      by_cases blank : 3 ≤ i
      · have source := original (i - 3) (by omega)
        have here : bandOffset 8 (i - 3) j = j := by
          unfold bandOffset
          omega
        rw [here, Nat.mod_eq_of_lt (by omega)] at source
        rw [source]
      · simp [blank]
    · have place : bandOffset 8 i j = j + 8 := by
        unfold bandOffset
        omega
      have bit : i % 8 = i - 8 := by omega
      rw [place, if_neg (by omega), if_pos (by omega), Nat.add_sub_cancel, bit,
        (loweredBits _ _ (by omega)).2, decide_eq_true (by omega),
        Bool.true_and, ← original (i - 3) (by omega)]
      by_cases moved : i - 8 < 3
      · have here : bandOffset 8 (i - 3) j = j := by
          unfold bandOffset
          omega
        have bits : (i - 3) % 8 = i - 8 + 5 := by omega
        rw [if_pos moved, here, bits]
      · have here : bandOffset 8 (i - 3) j = j + 8 := by
          unfold bandOffset
          omega
        have bits : (i - 3) % 8 = i - 8 - 3 := by omega
        rw [if_neg moved, here, bits]

theorem ascii8x16_oneGlyph {ascii : UInt8} (narrow : NarrowChar ascii) :
    (gt21l16s2GetAscii8x16 0 ascii).found = true ∧
      OneGlyph 16 (gt21l16s2GetAscii8x16 0 ascii) := by
  rw [gt21l16s2GetAscii8x16, if_pos narrow]
  exact ⟨rfl, .inl ⟨_, rfl, rfl⟩⟩

theorem ascii6x12_oneGlyph {ascii : UInt8} (narrow : NarrowChar ascii) :
    (gt21l16s2GetAscii6x12 ascii).found = true ∧
      OneGlyph 12 (gt21l16s2GetAscii6x12 ascii) := by
  rw [gt21l16s2GetAscii6x12, if_pos narrow]
  exact ⟨rfl, .inl ⟨_, rfl, rfl⟩⟩

section

variable {stale : UInt32} {msb lsb : UInt8}

theorem gb231215x16_oneGlyph (other : ¬ NarrowChar msb) :
    OneGlyph 32 (gt21l16s2GetGb231215x16 stale msb lsb) := by
  rw [gt21l16s2GetGb231215x16, getAsciiPair_missing other]
  split
  next => exact .inl ⟨_, rfl, rfl⟩
  next =>
    split
    next => exact .inl ⟨_, rfl, rfl⟩
    next =>
      split
      next => exact .inl ⟨_, rfl, rfl⟩
      next => exact .inr rfl

theorem gb231211x12_oneGlyph (other : ¬ NarrowChar msb) :
    OneGlyph 24 (gt21l16s2GetGb231211x12 stale msb lsb) := by
  rw [gt21l16s2GetGb231211x12, getAsciiPair_missing other]
  split
  next => exact .inl ⟨_, rfl, rfl⟩
  next =>
    split
    next => exact .inl ⟨_, rfl, rfl⟩
    next =>
      split
      next => exact .inl ⟨_, rfl, rfl⟩
      next => exact .inr rfl

end

/-- A turn of a font puts the glyph of the character into the buffer, and
keeps its size where there is none. -/
structure Font.Renders (font : Font) (lowered : Nat) : Prop where
  narrow : ∀ rom byte dispBuf, NarrowChar byte → dispBuf.length = 32 →
    HoldsGlyph (font.arrange ((font.getAscii byte).fill rom dispBuf))
      font.narrow fun i j =>
        decide (lowered ≤ i) &&
          (font.getAscii byte).dot rom font.narrow.width.toNat (i - lowered) j
  wide : ∀ rom stale lead trail dispBuf, ¬ NarrowChar lead →
    dispBuf.length = 32 →
      (font.getGb2312 stale lead trail).found = true →
        HoldsGlyph ((font.getGb2312 stale lead trail).fill rom dispBuf)
          font.wide
          ((font.getGb2312 stale lead trail).dot rom font.wide.width.toNat)
  missing : ∀ rom stale lead trail dispBuf, ¬ NarrowChar lead →
    (font.getGb2312 stale lead trail).found = false →
      (font.getGb2312 stale lead trail).fill rom dispBuf = dispBuf

theorem font15x16_renders : font15x16.Renders 3 where
  narrow := by
    intro rom byte dispBuf narrow size
    obtain ⟨found, glyph⟩ := ascii8x16_oneGlyph narrow
    exact arranged_holdsGlyph
      (glyph.holdsGlyph found (by decide) (by decide) (by decide) rom size)
  wide := by
    intro rom stale lead trail dispBuf other size found
    exact (gb231215x16_oneGlyph other).holdsGlyph found (by decide)
      (by decide) (by decide) rom size
  missing := by
    intro rom stale lead trail dispBuf other missing
    exact (gb231215x16_oneGlyph other).fill_missing missing rom dispBuf

theorem font11x12_renders : font11x12.Renders 0 where
  narrow := by
    intro rom byte dispBuf narrow size
    obtain ⟨found, glyph⟩ := ascii6x12_oneGlyph narrow
    exact glyph.holdsGlyph found (by decide) (by decide) (by decide) rom size
  wide := by
    intro rom stale lead trail dispBuf other size found
    exact (gb231211x12_oneGlyph other).holdsGlyph found (by decide)
      (by decide) (by decide) rom size
  missing := by
    intro rom stale lead trail dispBuf other missing
    exact (gb231211x12_oneGlyph other).fill_missing missing rom dispBuf

theorem Paints.congr {steps : List LcdStep} {x y width height : Nat}
    {pixel other : Nat → Nat → UInt16}
    (paints : Paints steps x y width height pixel)
    (same : ∀ i < height, ∀ j < width, pixel i j = other i j) :
    Paints steps x y width height other := by
  intro lcd column row
  rw [paints]
  by_cases inside : Inside x y width height column row
  · rw [if_pos inside, if_pos inside]
    unfold Inside at inside
    exact same _ (by omega) _ (by omega)
  · rw [if_neg inside, if_neg inside]

/-- One rectangle is painted below another. -/
theorem Paints.below {first second : List LcdStep}
    {x y width upper lower : Nat} {pixel other : Nat → Nat → UInt16}
    (above : Paints first x y width upper pixel)
    (beneath : Paints second x (y + upper) width lower other) :
    Paints (first ++ second) x y width (upper + lower) fun i j =>
      if i < upper then pixel i j else other (i - upper) j := by
  intro lcd column row
  rw [run_append, beneath, above]
  beta_reduce
  by_cases inside : Inside x y width (upper + lower) column row
  · rw [if_pos inside]
    unfold Inside at inside
    by_cases high : row - y < upper
    · rw [if_pos high, if_neg (by unfold Inside; omega),
        if_pos (by unfold Inside; omega)]
    · rw [if_neg high, if_pos (by unfold Inside; omega), Nat.sub_sub]
  · rw [if_neg inside]
    unfold Inside at inside
    rw [if_neg (by unfold Inside; omega), if_neg (by unfold Inside; omega)]

/-- A drawn character is painted as the buffer holds it. -/
theorem drawCell_paints {y blackColor textColor : UInt16} {face : Face}
    {dispBuf : List UInt8} {dot : Nat → Nat → Bool}
    (glyph : HoldsGlyph dispBuf face dot) (rows : face.rows ≤ 16)
    (low : y.toNat + 8 < 256) (limit : face.limit < 256) {column : Nat}
    {cell : Cell}
    (drawn : cell ∈ drawCell y blackColor textColor face dispBuf column) :
    cell.columns = { left := column, width := face.width.toNat } ∧
      Paints cell.steps column y.toNat face.width.toNat face.rows fun i j =>
        if dot i j then textColor else blackColor := by
  rw [drawCell] at drawn
  split at drawn
  next near =>
    have left : (UInt8.ofNat column).toNat = column :=
      UInt8.toNat_ofNat_of_lt' (Nat.lt_of_le_of_lt near limit)
    have top : (UInt8.ofNat y.toNat).toNat = y.toNat :=
      UInt8.toNat_ofNat_of_lt' (show y.toNat < 256 by omega)
    have middle : (UInt8.ofNat (y.toNat + 8)).toNat = y.toNat + 8 :=
      UInt8.toNat_ofNat_of_lt' low
    cases List.mem_singleton.mp drawn
    constructor
    · rw [Cell.columns, left]
    · have above := nv3021DispBit1bmpSingleByte_paints (byteAt dispBuf)
        (UInt8.ofNat column) (UInt8.ofNat y.toNat) face.width 8 textColor
        blackColor
      have beneath := nv3021DispBit1bmpSingleByte_paints
        (byteAt (dispBuf.drop face.width.toNat)) (UInt8.ofNat column)
        (UInt8.ofNat (y.toNat + 8)) face.width face.lowerHeight textColor
        blackColor
      rw [left, top] at above
      rw [left, middle] at beneath
      apply (above.below beneath).congr
      intro i below j within
      have eight : (8 : UInt8).toNat = 8 := rfl
      have bit := glyph.dots i below j within
      have band {stride row : Nat} (upper : row < 8) :
          bandOffset stride row j = j := by
        rw [bandOffset, Nat.div_eq_of_lt upper, Nat.zero_mul, Nat.add_zero]
      rw [eight, bandPixel, bandPixel, ← bit]
      by_cases upper : i < 8
      · rw [if_pos upper, band upper, band upper]
      · have height : i - 8 < 8 := by
          rw [eight] at below
          unfold Face.rows at rows
          omega
        have second : bandOffset face.width.toNat i j =
            face.width.toNat + j := by
          have one : i / 8 = 1 := by omega
          rw [bandOffset, one, Nat.one_mul, Nat.add_comm]
        have bits : (i - 8) % 8 = i % 8 := by omega
        rw [if_neg upper, band height, byteAt_drop, second, bits]
  next => cases drawn

section

variable {rom : Nat → UInt8} {stale : UInt32} {font : Font} {lowered : Nat}
variable {x y : UInt16} {gb2312Dat : List UInt8}
variable {blackColor textColor : UInt16} {wideRow : UInt8 → Bool}

/-- The cell shows a character where it belongs. -/
def ShowsCharacter (rom : Nat → UInt8) (stale : UInt32) (font : Font)
    (lowered : Nat) (x y : Nat) (gb2312Dat : List UInt8)
    (blackColor textColor : UInt16) (cell : Cell) (character : Character) :
    Prop :=
  cell.columns = character.place x font.step ∧
    Paints cell.steps (character.place x font.step).left y
      (character.place x font.step).width (font.face character).rows
      (textPixel rom stale font lowered gb2312Dat blackColor textColor
        character)

/-- What holds whenever a turn begins: each cell shows some character. -/
structure CellsShow (rom : Nat → UInt8) (stale : UInt32) (font : Font)
    (lowered : Nat) (x y : Nat) (gb2312Dat : List UInt8)
    (blackColor textColor : UInt16) (run : TextRun) : Prop where
  size : run.dispBuf.length = 32
  cells : ∀ cell ∈ run.cells, ∃ character,
    ShowsCharacter rom stale font lowered x y gb2312Dat blackColor textColor
      cell character

/-- A turn that draws a glyph shows its character. -/
theorem CellsShow.draw {run : TextRun} {dispBuf : List UInt8} {face : Face}
    (shows : CellsShow rom stale font lowered x.toNat y.toNat gb2312Dat
      blackColor textColor run)
    {character : Character}
    (glyph : HoldsGlyph dispBuf face
      (textDot rom stale font lowered gb2312Dat character))
    (faced : font.face character = face)
    (place : (character.place x.toNat font.step).width = face.width.toNat)
    (rows : face.rows ≤ 16) (limit : face.limit < 256)
    (low : y.toNat + 8 < 256) (i : UInt16) :
    CellsShow rom stale font lowered x.toNat y.toNat gb2312Dat blackColor
      textColor
      { i := i
        dispBuf := dispBuf
        cells := run.cells ++
          drawCell y blackColor textColor face dispBuf
            (character.place x.toNat font.step).left } := by
  constructor
  · exact glyph.size
  · intro cell member
    rcases List.mem_append.mp member with before | drawn
    · exact shows.cells cell before
    · obtain ⟨columns, paints⟩ := drawCell_paints glyph rows low limit drawn
      refine ⟨character, ?_, ?_⟩
      · rw [columns, ← place]
      · rw [faced, place]
        exact paints

/-- Each turn keeps that the cells show characters. -/
theorem charTurn_shows (suits : font.Suits wideRow)
    (renders : font.Renders lowered) (low : y.toNat + 8 < 256)
    {run next : TextRun}
    (shows : CellsShow rom stale font lowered x.toNat y.toNat gb2312Dat
      blackColor textColor run)
    (goesOn : charTurn rom stale font x y gb2312Dat blackColor textColor run =
      .again next) :
    CellsShow rom stale font lowered x.toNat y.toNat gb2312Dat blackColor
      textColor next := by
  simp only [charTurn] at goesOn
  split at goesOn
  next =>
    split at goesOn
    next narrow =>
      cases goesOn
      have glyph : HoldsGlyph _ font.narrow
          (textDot rom stale font lowered gb2312Dat
            { index := run.i.toNat, bytes := 1 }) :=
        renders.narrow rom _ _ narrow shows.size
      have limit := suits.narrowLimit
      exact shows.draw glyph rfl suits.narrowWidth.symm
        (Nat.add_le_add_left suits.narrowLow 8) (by omega) low _
    next other =>
      split at goesOn
      next found =>
        cases goesOn
        have glyph : HoldsGlyph _ font.wide
            (textDot rom stale font lowered gb2312Dat
              { index := run.i.toNat, bytes := 2 }) :=
          renders.wide rom stale _ _ _ other shows.size found
        have limit := suits.wideLimit
        exact shows.draw glyph rfl suits.wideWidth.symm
          (Nat.add_le_add_left suits.wideLow 8) (by omega) low _
      next missing =>
        cases goesOn
        have kept := renders.missing rom stale _ _ run.dispBuf other
          (Bool.eq_false_iff.mpr missing)
        refine ⟨?_, shows.cells⟩
        rw [kept]
        exact shows.size
  next => cases goesOn

theorem uiDispChina_shows (suits : font.Suits wideRow)
    (renders : font.Renders lowered) (low : y.toNat + 8 < 256)
    (short : strlen gb2312Dat < 65536) {cells : List Cell}
    (drawn : uiDispChina rom stale font x y gb2312Dat blackColor textColor =
      some cells) :
    ∀ cell ∈ cells, ∃ character,
      ShowsCharacter rom stale font lowered x.toNat y.toNat gb2312Dat
        blackColor textColor cell character := by
  obtain ⟨final, result, rfl⟩ := Option.map_eq_some_iff.mp drawn
  have kept := @loop_induction _ _ (fun run final : TextRun =>
    CellsShow rom stale font lowered x.toNat y.toNat gb2312Dat blackColor
        textColor run →
      CellsShow rom stale font lowered x.toNat y.toNat gb2312Dat blackColor
        textColor final) ?_ ?_ _ _ _ result
  · exact (kept ⟨List.length_replicate, List.forall_mem_nil _⟩).cells
  · intro run final stops shows
    rw [(charTurn_done short stops).1]
    exact shows
  · intro run next final goesOn later shows
    exact later (charTurn_shows suits renders low shows goesOn)

/-- The cells paint the characters they show, each beside the others. -/
theorem run_cells {cells : List Cell} {characters : Cell → Character}
    (shows : ∀ cell ∈ cells,
      ShowsCharacter rom stale font lowered x.toNat y.toNat gb2312Dat
        blackColor textColor cell (characters cell))
    (ordered : cells.Pairwise fun first second =>
      first.columns.right ≤ second.columns.left) (lcd : Lcd)
    (column row : Nat) :
    (∀ cell ∈ cells,
      (characters cell).Covers font x.toNat y.toNat column row →
        (run lcdStep lcd (cells.flatMap Cell.steps)).panel.cells column row =
          textPixel rom stale font lowered gb2312Dat blackColor textColor
            (characters cell) (row - y.toNat)
            (column - ((characters cell).place x.toNat font.step).left)) ∧
    ((∀ cell ∈ cells,
      ¬ (characters cell).Covers font x.toNat y.toNat column row) →
        (run lcdStep lcd (cells.flatMap Cell.steps)).panel.cells column row =
          lcd.panel.cells column row) := by
  induction cells generalizing lcd with
  | nil => exact ⟨List.forall_mem_nil _, fun _ => rfl⟩
  | cons cell cells induction =>
      obtain ⟨columns, paints⟩ := shows cell List.mem_cons_self
      obtain ⟨apart, ordered⟩ := List.pairwise_cons.mp ordered
      have here := paints lcd column row
      obtain ⟨later, past⟩ := induction
        (fun other member => shows other (List.mem_cons_of_mem _ member))
        ordered (run lcdStep lcd cell.steps)
      rw [List.flatMap_cons, run_append]
      constructor
      · intro shown member covered
        rcases List.mem_cons.mp member with rfl | behind
        · have others : ∀ other ∈ cells,
              ¬ (characters other).Covers font x.toNat y.toNat column row := by
            intro other otherMember covers
            have beside := apart other otherMember
            rw [columns, (shows other
              (List.mem_cons_of_mem _ otherMember)).1] at beside
            unfold Character.Covers Inside at covered covers
            unfold Columns.right at beside
            omega
          rw [past others, here]
          exact if_pos covered
        · exact later shown behind covered
      · intro uncovered
        rw [past fun other member =>
          uncovered other (List.mem_cons_of_mem _ member), here]
        exact if_neg (uncovered cell List.mem_cons_self)

theorem Character.place_injective {start step : Nat} (moves : 0 < step)
    {first second : Character}
    (same : first.place start step = second.place start step) :
    first = second := by
  have left := congrArg Columns.left same
  have width := congrArg Columns.width same
  have indices : first.index = second.index :=
    Nat.eq_of_mul_eq_mul_right moves (Nat.add_left_cancel left)
  have bytes : first.bytes = second.bytes :=
    Nat.eq_of_mul_eq_mul_right moves width
  cases first
  cases second
  cases indices
  cases bytes
  rfl

/-- A text that has been drawn is on the display. -/
theorem uiDispChina_showsText (suits : font.Suits wideRow)
    (renders : font.Renders lowered) (moves : 0 < font.step)
    (low : y.toNat + 8 < 256) (short : strlen gb2312Dat < 65536) (lcd : Lcd) :
    ∃ cells,
      uiDispChina rom stale font x y gb2312Dat blackColor textColor =
        some cells ∧
      ShowsText rom stale font lowered x.toNat y.toNat gb2312Dat blackColor
        textColor wideRow lcd.panel.cells
        (run lcdStep lcd (cells.flatMap Cell.steps)).panel.cells := by
  obtain ⟨cells, result, draws⟩ := uiDispChina_draws suits short
  have nonempty : Nonempty Character := ⟨{ index := 0, bytes := 1 }⟩
  choose! characters shows using
    uiDispChina_shows suits renders low short result
  have painted := run_cells shows draws.staysOnScreen.ordered lcd
  refine ⟨cells, result, ?_, ?_⟩
  · intro character member fits column row covered
    have placed : character.place x.toNat font.step ∈
        cells.map Cell.columns := by
      rw [draws.placed]
      exact List.mem_filter.mpr
        ⟨List.mem_map_of_mem member, decide_eq_true fits⟩
    obtain ⟨cell, drawn, columns⟩ := List.mem_map.mp placed
    have own : characters cell = character :=
      Character.place_injective moves
        ((shows cell drawn).1.symm.trans columns)
    subst own
    exact (painted column row).1 cell drawn covered
  · intro column row uncovered
    apply (painted column row).2
    intro cell drawn
    have placed : cell.columns ∈ cells.map Cell.columns :=
      List.mem_map_of_mem drawn
    rw [draws.placed] at placed
    obtain ⟨listed, fits⟩ := List.mem_filter.mp placed
    obtain ⟨character, member, columns⟩ := List.mem_map.mp listed
    have own : character = characters cell :=
      Character.place_injective moves (columns.trans (shows cell drawn).1)
    subst own
    rw [← columns] at fits
    exact uncovered _ member (of_decide_eq_true fits)

end

/-- Whatever the display showed and was doing before, after a text has been
drawn the characters that fit are on it, with the dots of their glyphs in the
font ROM, and nothing else has changed. -/
theorem bootText_onDisplay (rom : Nat → UInt8) (stale : UInt32)
    (x y : UInt16) (gb2312Dat : List UInt8) (blackColor textColor : UInt16)
    (low : y.toNat + 8 < 256) (short : strlen gb2312Dat < 65536) (lcd : Lcd) :
    (∃ cells,
      uiDispChina15x16 rom stale x y gb2312Dat blackColor textColor =
        some cells ∧
      ShowsText rom stale font15x16 3 x.toNat y.toNat gb2312Dat blackColor
        textColor (fun lead => WideRow15x16 lead) lcd.panel.cells
        (run lcdStep lcd (cells.flatMap Cell.steps)).panel.cells) ∧
    ∃ cells,
      uiDispChina11x12 rom stale x y gb2312Dat blackColor textColor =
        some cells ∧
      ShowsText rom stale font11x12 0 x.toNat y.toNat gb2312Dat blackColor
        textColor (fun lead => WideRow11x12 lead) lcd.panel.cells
        (run lcdStep lcd (cells.flatMap Cell.steps)).panel.cells :=
  ⟨uiDispChina_showsText font15x16_suits font15x16_renders (by decide) low
      short lcd,
    uiDispChina_showsText font11x12_suits font11x12_renders (by decide) low
      short lcd⟩

/-- A glyph of which every dot is set, lowered by three rows. -/
theorem bootText_onDisplay_lowered :
    ∃ cells,
      uiDispChina15x16 (fun _ => 0xFF) 0 20 3 [0x41] 0x001F 0xFFFF =
        some cells ∧
      let shown := (run lcdStep .blank (cells.flatMap Cell.steps)).panel.cells
      shown 20 5 = 0x001F ∧ shown 20 6 = 0xFFFF ∧ shown 28 6 = 0 := by
  obtain ⟨cells, result, shows⟩ :=
    (bootText_onDisplay (fun _ => 0xFF) 0 20 3 [0x41] 0x001F 0xFFFF
      (by decide) (by decide) .blank).1
  refine ⟨cells, result, ?_, ?_, ?_⟩
  · exact shows.shown { index := 0, bytes := 1 } (by decide) (by decide) 20 5
      (by decide)
  · exact shows.shown { index := 0, bytes := 1 } (by decide) (by decide) 20 6
      (by decide)
  · exact shows.kept 28 6 (by decide)

end Tp79Boot
