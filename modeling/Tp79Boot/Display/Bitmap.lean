import Tp79Boot.Lib.ByteBits
import Tp79Boot.Lib.Raster

/-!
# Drawing a bitmap of one bit a pixel

`nv3021.c` takes the byte of a pixel from bands `height` bytes apart, where
the bitmap has them `width` bytes apart.  The two are the same for a single
band and for a square.
-/

namespace Tp79Boot

open ByteBits Raster

/-- What drawing does: bytes of the bitmap are read, counted from its first
one, and commands and data are sent to the display. -/
inductive LcdStep where
  | read (offset : Nat)
  | cmd8 (cmd : UInt8)
  | dat8 (data : UInt8)
  | dat16 (data : UInt16)
deriving DecidableEq, Repr

/-- The words of a picture among the steps. -/
def LcdStep.word? : LcdStep → Option UInt16
  | .dat16 data => some data
  | _ => none

def words (steps : List LcdStep) : List UInt16 :=
  steps.filterMap LcdStep.word?

/-- An address of the display, the high byte first. -/
def datAddress (address : Nat) : List LcdStep :=
  [.dat8 (UInt8.ofNat (address / 256)), .dat8 (UInt8.ofNat (address % 256))]

def nv3021SetDisRange (x y m k : UInt16) : List LcdStep :=
  [.cmd8 0x2a] ++ datAddress x.toNat ++ datAddress (x.toNat + m.toNat) ++
    [.cmd8 0x2b] ++ datAddress y.toNat ++ datAddress (y.toNat + k.toNat)

section

-- The bitmap and what lies behind it in memory.
variable (bmp : Nat → UInt8)
variable (x y width height : UInt8) (colorData backColor : UInt16)

/-- One turn of the two loops. -/
def bit1bmpDot (i j : Nat) : List LcdStep :=
  let offset := j + i / 8 * height.toNat
  [.read offset,
    .dat16 (if bmp offset &&& (0x01 <<< UInt8.ofNat (i % 8)) != 0 then
      colorData else backColor)]

def nv3021DispBit1bmpSingleByte : List LcdStep :=
  nv3021SetDisRange x.toUInt16 y.toUInt16 (width.toUInt16 - 1)
      (height.toUInt16 - 1) ++
    [.cmd8 0x2c] ++
    (List.range height.toNat).flatMap fun i =>
      (List.range width.toNat).flatMap fun j =>
        bit1bmpDot bmp height colorData backColor i j

/-- A pixel shows the bit of its row in the byte of its band and column. -/
def bandPixel (stride i j : Nat) : UInt16 :=
  if (bmp (bandOffset stride i j)).toNat.testBit (i % 8) then colorData
  else backColor

/-- The bitmap is drawn as its bands of `width` bytes are laid out, and only
their bytes are read. -/
structure DrawnAsLaidOut : Prop where
  pixels : ∀ i < height.toNat, ∀ j < width.toNat,
    (words (nv3021DispBit1bmpSingleByte bmp x y width height colorData
        backColor))[i * width.toNat + j]? =
      some (bandPixel bmp colorData backColor width.toNat i j)
  inside : ∀ offset,
    .read offset ∈ nv3021DispBit1bmpSingleByte bmp x y width height colorData
        backColor →
      offset < bandBytes width.toNat height.toNat

/-- The bands `height` bytes apart hold the rows of those `width` apart. -/
def BandsRepeat (width height : Nat) : Prop :=
  ∀ band, ∀ column < width,
    (bmp (column + band * height)).toNat % 2 ^ bandRows height band =
      (bmp (column + band * width)).toNat % 2 ^ bandRows height band

end

section

variable {bmp : Nat → UInt8} {x y width height : UInt8}
variable {colorData backColor : UInt16}

theorem words_drawn :
    words (nv3021DispBit1bmpSingleByte bmp x y width height colorData
        backColor) =
      raster height.toNat width.toNat
        (bandPixel bmp colorData backColor height.toNat) := by
  have turn (i j : Nat) :
      words (bit1bmpDot bmp height colorData backColor i j) =
        [bandPixel bmp colorData backColor height.toNat i j] := by
    rw [bandPixel, ← mask_iff_testBit _ _ (Nat.mod_lt i (by decide))]
    rfl
  rw [nv3021DispBit1bmpSingleByte, words, List.filterMap_append,
    List.filterMap_flatMap]
  apply List.flatMap_congr
  intro i _
  rw [List.filterMap_flatMap, List.map_eq_flatMap]
  apply List.flatMap_congr
  intro j _
  exact turn i j

theorem read_mem_iff {offset : Nat} :
    .read offset ∈ nv3021DispBit1bmpSingleByte bmp x y width height colorData
        backColor ↔
      ∃ i < height.toNat, ∃ j < width.toNat,
        bandOffset height.toNat i j = offset := by
  rw [nv3021DispBit1bmpSingleByte, List.mem_append]
  constructor
  · rintro (start | turn)
    · simp [nv3021SetDisRange, datAddress] at start
    · obtain ⟨i, below, row⟩ := List.mem_flatMap.mp turn
      obtain ⟨j, within, here⟩ := List.mem_flatMap.mp row
      have read : offset = j + i / 8 * height.toNat := by
        simpa [bit1bmpDot] using here
      exact ⟨i, List.mem_range.mp below, j, List.mem_range.mp within,
        read.symm⟩
  · rintro ⟨i, below, j, within, rfl⟩
    apply Or.inr
    apply List.mem_flatMap.mpr
    refine ⟨i, List.mem_range.mpr below, List.mem_flatMap.mpr ?_⟩
    exact ⟨j, List.mem_range.mpr within, List.mem_cons_self⟩

/-- The words drawn are those laid out where the two strides give the same
pixels, and the bytes read are the bitmap's where it is not higher than wide. -/
theorem drawnAsLaidOut_iff_strides :
    DrawnAsLaidOut bmp x y width height colorData backColor ↔
      (∀ i < height.toNat, ∀ j < width.toNat,
        bandPixel bmp colorData backColor height.toNat i j =
          bandPixel bmp colorData backColor width.toNat i j) ∧
      (width.toNat = 0 ∨ height.toNat ≤ 8 ∨ height.toNat ≤ width.toNat) := by
  rw [← bandOffset_inside_iff]
  constructor
  · intro drawn
    constructor
    · intro i below j within
      have pixel := drawn.pixels i below j within
      rw [words_drawn, raster_getElem? _ below within] at pixel
      exact Option.some.inj pixel
    · intro i below j within
      exact drawn.inside _ (read_mem_iff.mpr ⟨i, below, j, within, rfl⟩)
  · rintro ⟨same, inside⟩
    constructor
    · intro i below j within
      rw [words_drawn, raster_getElem? _ below within, same i below j within]
    · intro offset member
      obtain ⟨i, below, j, within, rfl⟩ := read_mem_iff.mp member
      exact inside i below j within

/-- The pixels are the same for both strides exactly when the colours are, or
the bands hold the same rows. -/
theorem bandPixel_same_iff :
    (∀ i < height.toNat, ∀ j < width.toNat,
      bandPixel bmp colorData backColor height.toNat i j =
        bandPixel bmp colorData backColor width.toNat i j) ↔
      colorData = backColor ∨
        BandsRepeat bmp width.toNat height.toNat := by
  by_cases plain : colorData = backColor
  · simp [plain, bandPixel]
  · have bits (first second : Bool) :
        (if first then colorData else backColor) =
          (if second then colorData else backColor) ↔ first = second := by
      cases first with
      | false => cases second <;> simp [Ne.symm plain]
      | true => cases second <;> simp [plain]
    rw [or_iff_right plain]
    calc
      _ ↔ ∀ i < height.toNat, ∀ j < width.toNat,
          (bmp (j + i / 8 * height.toNat)).toNat.testBit (i % 8) =
            (bmp (j + i / 8 * width.toNat)).toNat.testBit (i % 8) := by
        apply forall₄_congr
        intro i _ j _
        exact bits _ _
      _ ↔ ∀ band, ∀ bit < bandRows height.toNat band, ∀ j < width.toNat,
          (bmp (j + band * height.toNat)).toNat.testBit bit =
            (bmp (j + band * width.toNat)).toNat.testBit bit :=
        forall_row_iff height.toNat fun band bit => ∀ j < width.toNat,
          (bmp (j + band * height.toNat)).toNat.testBit bit =
            (bmp (j + band * width.toNat)).toNat.testBit bit
      _ ↔ BandsRepeat bmp width.toNat height.toNat := by
        apply forall_congr'
        intro band
        constructor
        · intro rows column within
          apply (testBit_below_iff _ _ _).mp
          intro bit below
          exact rows bit below column within
        · intro bytes bit below column within
          exact (testBit_below_iff _ _ _).mpr (bytes column within) bit below

theorem BandsRepeat.of_size {width height : Nat}
    (aligned : width = 0 ∨ height ≤ 8 ∨ height = width) :
    BandsRepeat bmp width height := by
  intro band column within
  rcases aligned with empty | low | rfl
  · omega
  · cases band with
    | zero => rw [Nat.zero_mul, Nat.zero_mul]
    | succ band =>
        have none : bandRows height (band + 1) = 0 := by
          rw [bandRows]
          omega
        rw [none, Nat.pow_zero, Nat.mod_one, Nat.mod_one]
  · rfl

theorem drawnAsLaidOut_of_size
    (aligned : width.toNat = 0 ∨ height.toNat ≤ 8 ∨
      height.toNat = width.toNat) :
    DrawnAsLaidOut bmp x y width height colorData backColor := by
  apply drawnAsLaidOut_iff_strides.mpr
  constructor
  · exact bandPixel_same_iff.mpr (.inr (BandsRepeat.of_size aligned))
  · omega

end

/-- A bitmap with one dot: the first column of the ninth row, where the
source looks for it. -/
def dotAtHeight (height : Nat) : Nat → UInt8 :=
  fun offset => if offset = height then 1 else 0

theorem dotAtHeight_not_repeated {width height : Nat} (wide : 0 < width)
    (high : 8 < height) (different : height ≠ width) :
    ¬ BandsRepeat (dotAtHeight height) width height := by
  intro repeated
  have rows := (testBit_below_iff _ _ _).mpr (repeated 1 0 wide) 0 (by
    rw [bandRows]
    omega)
  simp [dotAtHeight, different.symm] at rows

/-- Every bitmap of a size is drawn as laid out exactly when the size is
empty, a single band, or a square; at another size a bitmap is, exactly when
it is wider than high and the colours are the same or the bands repeat. -/
theorem drawnAsLaidOut_iff (width height : UInt8) :
    ((∀ bmp x y colorData backColor,
        DrawnAsLaidOut bmp x y width height colorData backColor) ↔
      (width.toNat = 0 ∨ height.toNat ≤ 8 ∨ height = width)) ∧
    ∀ bmp x y colorData backColor,
      DrawnAsLaidOut bmp x y width height colorData backColor ↔
        (width.toNat = 0 ∨ height.toNat ≤ 8 ∨ height = width) ∨
          (height < width ∧ (colorData = backColor ∨
            BandsRepeat bmp width.toNat height.toNat)) := by
  have each (bmp x y colorData backColor) :
      DrawnAsLaidOut bmp x y width height colorData backColor ↔
        (width.toNat = 0 ∨ height.toNat ≤ 8 ∨ height = width) ∨
          (height < width ∧ (colorData = backColor ∨
            BandsRepeat bmp width.toNat height.toNat)) := by
    rw [← UInt8.toNat_inj, UInt8.lt_iff_toNat_lt]
    by_cases aligned : width.toNat = 0 ∨ height.toNat ≤ 8 ∨
        height.toNat = width.toNat
    · exact iff_of_true (drawnAsLaidOut_of_size aligned) (.inl aligned)
    · rw [drawnAsLaidOut_iff_strides, bandPixel_same_iff,
        or_iff_right aligned]
      constructor
      · rintro ⟨same, small⟩
        exact ⟨by omega, same⟩
      · rintro ⟨wider, same⟩
        exact ⟨same, .inr (.inr (Nat.le_of_lt wider))⟩
  refine ⟨⟨?_, ?_⟩, each⟩
  · intro every
    by_contra unaligned
    have drawn := (each (dotAtHeight height.toNat) 0 0 0xffff 0).mp
      (every _ _ _ _ _)
    rw [← UInt8.toNat_inj] at drawn unaligned
    rcases drawn with aligned | ⟨_, plain | repeated⟩
    · exact unaligned aligned
    · exact absurd plain (by decide)
    · exact dotAtHeight_not_repeated (by omega) (by omega) (by omega) repeated
  · intro aligned bmp x y colorData backColor
    exact (each bmp x y colorData backColor).mpr (.inl aligned)

/-- Of a picture four wide and sixteen high the second band is not drawn, and
bytes behind its eight are read. -/
theorem tall_bitmap_misdrawn :
    let bmp : Nat → UInt8 := fun offset =>
      if 4 ≤ offset ∧ offset < 8 then 0xff else 0
    let steps := nv3021DispBit1bmpSingleByte bmp 0 0 4 16 0xffff 0
    (words steps)[32]? = some 0 ∧
      bandPixel bmp 0xffff 0 4 8 0 = 0xffff ∧
      .read 16 ∈ steps ∧ bandBytes 4 16 = 8 ∧
      ¬ DrawnAsLaidOut bmp 0 0 4 16 0xffff 0 := by
  intro bmp steps
  have drawn : (words steps)[32]? = some 0 := by decide
  have laidOut : bandPixel bmp 0xffff 0 4 8 0 = 0xffff := by decide
  refine ⟨drawn, laidOut, by decide, by decide, ?_⟩
  intro asLaidOut
  have pixel := asLaidOut.pixels 8 (by decide) 0 (by decide)
  have same := drawn.symm.trans pixel
  exact absurd (Option.some.inj same) (by decide)

end Tp79Boot
