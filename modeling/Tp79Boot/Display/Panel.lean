import Tp79Boot.Display.Bitmap
import Tp79Boot.Lib.EventRun
import Tp79Boot.Lib.WindowedPanel

/-!
# What the display shows

The controller of the display keeps the last command and the bytes that have
come after it: two commands choose the columns and the rows of a window, and a
third one fills the window with pixels of two bytes.  Each function of
`nv3021.c` that draws a picture paints the rectangle it is given and leaves all
other pixels as they are, whatever the controller was doing before.
-/

namespace Tp79Boot

open EventRun Raster WindowedPanel

/-- Two bytes as a number, the high one first. -/
def pairValue (high low : UInt8) : Nat :=
  high.toNat * 256 + low.toNat

structure Lcd where
  cmd : UInt8
  dats : List UInt8
  panel : Panel UInt16

namespace Lcd

/-- A display that has been sent nothing. -/
def blank : Lcd where
  cmd := 0
  dats := []
  panel :=
    { window := { left := 0, right := 0, top := 0, bottom := 0 }
      column := 0
      row := 0
      cells := fun _ _ => 0 }

def command (lcd : Lcd) (cmd : UInt8) : Lcd :=
  { cmd := cmd
    dats := []
    panel := if cmd = 0x2c then lcd.panel.begin else lcd.panel }

/-- A window whose columns or rows have come in full is set. -/
def withColumns (panel : Panel UInt16) : List UInt8 → Panel UInt16
  | [startHigh, startLow, endHigh, endLow] =>
      { panel with
        window :=
          { panel.window with
            left := pairValue startHigh startLow
            right := pairValue endHigh endLow } }
  | _ => panel

def withRows (panel : Panel UInt16) : List UInt8 → Panel UInt16
  | [startHigh, startLow, endHigh, endLow] =>
      { panel with
        window :=
          { panel.window with
            top := pairValue startHigh startLow
            bottom := pairValue endHigh endLow } }
  | _ => panel

def data (lcd : Lcd) (byte : UInt8) : Lcd :=
  let dats := lcd.dats ++ [byte]
  if lcd.cmd = 0x2a then
    { lcd with dats := dats, panel := withColumns lcd.panel dats }
  else if lcd.cmd = 0x2b then
    { lcd with dats := dats, panel := withRows lcd.panel dats }
  else if lcd.cmd = 0x2c then
    match dats with
    | [high, low] =>
        { lcd with
          dats := []
          panel := lcd.panel.push (UInt16.ofNat (pairValue high low)) }
    | _ => { lcd with dats := dats }
  else { lcd with dats := dats }

end Lcd

/-- What the controller makes of a step. -/
def lcdStep (lcd : Lcd) : LcdStep → Lcd
  | .read _ => lcd
  | .cmd8 cmd => lcd.command cmd
  | .dat8 data => lcd.data data
  | .dat16 data => (lcd.data (data >>> 8).toUInt8).data data.toUInt8

def nv3021ColorClr (x y : UInt8) (colorData : UInt16) (width height : UInt8) :
    List LcdStep :=
  nv3021SetDisRange x.toUInt16 y.toUInt16 (width.toUInt16 - 1)
      (height.toUInt16 - 1) ++
    [.cmd8 0x2c] ++
    (List.range height.toNat).flatMap fun _ =>
      (List.range width.toNat).flatMap fun _ => [.dat16 colorData]

/-- The pointer `bmp` is moved on by each of the two reads. -/
def nv3021DispBmpSingleByte (x y : UInt8) (bmp : Nat → UInt8)
    (width height : UInt8) : List LcdStep :=
  nv3021SetDisRange x.toUInt16 y.toUInt16 (width.toUInt16 - 1)
      (height.toUInt16 - 1) ++
    [.cmd8 0x2c] ++
    (List.range height.toNat).flatMap fun i =>
      (List.range width.toNat).flatMap fun j =>
        let offset := 2 * (i * width.toNat + j)
        [.read offset, .dat8 (bmp offset), .read (offset + 1),
          .dat8 (bmp (offset + 1))]

/-- The rows of the picture are stored from the last one to the first. -/
def nv3021DispBmpDoubleByte (x y : UInt8) (bmp : Nat → UInt16)
    (width height : UInt8) : List LcdStep :=
  nv3021SetDisRange x.toUInt16 y.toUInt16 (width.toUInt16 - 1)
      (height.toUInt16 - 1) ++
    [.cmd8 0x2c] ++
    (List.range height.toNat).flatMap fun i =>
      (List.range width.toNat).flatMap fun j =>
        let offset := (height.toNat - i - 1) * width.toNat + j
        let temp := bmp offset
        [.read offset, .dat16 ((temp >>> 8) + (temp <<< 8))]

/-- Each argument of a box is cut to eight bits. -/
def nv3021DispRange (x y width hight : UInt16) (lineWidth : UInt8)
    (color : UInt16) : List LcdStep :=
  nv3021ColorClr x.toUInt8 y.toUInt8 color width.toUInt8 lineWidth ++
    nv3021ColorClr x.toUInt8 y.toUInt8 color lineWidth hight.toUInt8 ++
    nv3021ColorClr (x + width - lineWidth.toUInt16).toUInt8 y.toUInt8 color
      lineWidth hight.toUInt8 ++
    nv3021ColorClr x.toUInt8 (y + hight - lineWidth.toUInt16).toUInt8 color
      width.toUInt8 lineWidth

/-- The steps paint a rectangle and nothing else. -/
def Paints (steps : List LcdStep) (x y width height : Nat)
    (pixel : Nat → Nat → UInt16) : Prop :=
  ∀ lcd column row, (run lcdStep lcd steps).panel.cells column row =
    if Inside x y width height column row then pixel (row - y) (column - x)
    else lcd.panel.cells column row

theorem pairValue_address {address : Nat} (small : address < 65536) :
    pairValue (UInt8.ofNat (address / 256)) (UInt8.ofNat (address % 256)) =
      address := by
  have high : (UInt8.ofNat (address / 256)).toNat = address / 256 :=
    UInt8.toNat_ofNat_of_lt' (show address / 256 < 256 by omega)
  have low : (UInt8.ofNat (address % 256)).toNat = address % 256 :=
    UInt8.toNat_ofNat_of_lt' (show address % 256 < 256 by omega)
  rw [pairValue, high, low]
  omega

theorem run_setDisRange {x y m k : UInt16} (lcd : Lcd)
    (columns : x.toNat + m.toNat < 65536) (rows : y.toNat + k.toNat < 65536) :
    (run lcdStep lcd (nv3021SetDisRange x y m k)).panel =
      { lcd.panel with
        window :=
          { left := x.toNat
            right := x.toNat + m.toNat
            top := y.toNat
            bottom := y.toNat + k.toNat } } := by
  have left := pairValue_address x.toNat_lt
  have right := pairValue_address columns
  have top := pairValue_address y.toNat_lt
  have bottom := pairValue_address rows
  simp [run, nv3021SetDisRange, datAddress, lcdStep, Lcd.command, Lcd.data,
    Lcd.withColumns, Lcd.withRows, left, right, top, bottom]

theorem run_setDisRange_cells (lcd : Lcd) (x y m k : UInt16) :
    (run lcdStep lcd (nv3021SetDisRange x y m k)).panel.cells =
      lcd.panel.cells := rfl

/-- The next bytes are those of a pixel. -/
def Lcd.Filling (lcd : Lcd) : Prop :=
  lcd.cmd = 0x2c ∧ lcd.dats = []

/-- The steps send one pixel. -/
def SendsPixel (steps : List LcdStep) (value : UInt16) : Prop :=
  ∀ lcd : Lcd, lcd.Filling →
    run lcdStep lcd steps = { lcd with panel := lcd.panel.push value }

theorem sendsPixel_bytes (high low : UInt8) (before between : Nat) :
    SendsPixel [.read before, .dat8 high, .read between, .dat8 low]
      (UInt16.ofNat (pairValue high low)) := by
  rintro ⟨cmd, dats, panel⟩ ⟨rfl, rfl⟩
  rfl

theorem pairValue_split (value : UInt16) :
    UInt16.ofNat (pairValue (value >>> 8).toUInt8 value.toUInt8) = value := by
  have range := value.toNat_lt
  have high : (value >>> 8).toUInt8.toNat = value.toNat / 256 := by
    have shifted : (value >>> 8).toNat = value.toNat / 256 := by
      rw [UInt16.toNat_shiftRight]
      exact Nat.shiftRight_eq_div_pow _ 8
    rw [UInt16.toNat_toUInt8, shifted]
    exact Nat.mod_eq_of_lt (by omega)
  have low : value.toUInt8.toNat = value.toNat % 256 :=
    UInt16.toNat_toUInt8 value
  have whole : pairValue (value >>> 8).toUInt8 value.toUInt8 =
      value.toNat := by
    rw [pairValue, high, low]
    omega
  rw [whole, UInt16.ofNat_toNat]

theorem sendsPixel_dat16 (value : UInt16) :
    SendsPixel [.dat16 value] value := by
  rintro ⟨cmd, dats, panel⟩ ⟨rfl, rfl⟩
  have pushed : run lcdStep { cmd := 0x2c, dats := [], panel := panel }
      [.dat16 value] =
        { cmd := 0x2c
          dats := []
          panel := panel.push (UInt16.ofNat (pairValue (value >>> 8).toUInt8
            value.toUInt8)) } := rfl
  rw [pushed, pairValue_split]

theorem SendsPixel.read {steps : List LcdStep} {value : UInt16}
    (sends : SendsPixel steps value) (offset : Nat) :
    SendsPixel (.read offset :: steps) value := by
  intro lcd filling
  exact sends lcd filling

section

variable {turn : Nat → Nat → List LcdStep} {pixel : Nat → Nat → UInt16}

theorem run_row (sends : ∀ i j, SendsPixel (turn i j) (pixel i j)) (i : Nat)
    (width : Nat) {lcd : Lcd} (filling : lcd.Filling) :
    run lcdStep lcd ((List.range width).flatMap (turn i)) =
      { lcd with
        panel := lcd.panel.pushAll ((List.range width).map (pixel i)) } := by
  induction width with
  | zero => rfl
  | succ width induction =>
      have here := sends i width { lcd with
        panel := lcd.panel.pushAll ((List.range width).map (pixel i)) } filling
      rw [List.range_succ, List.flatMap_append, List.flatMap_singleton,
        run_append, induction, here, List.map_append, List.map_singleton,
        Panel.pushAll_concat]

theorem run_rows (sends : ∀ i j, SendsPixel (turn i j) (pixel i j))
    (width height : Nat) {lcd : Lcd} (filling : lcd.Filling) :
    run lcdStep lcd ((List.range height).flatMap fun i =>
        (List.range width).flatMap (turn i)) =
      { lcd with
        panel := lcd.panel.pushAll (raster height width pixel) } := by
  induction height with
  | zero => rfl
  | succ height induction =>
      have here := @run_row turn pixel sends height width { lcd with
        panel := lcd.panel.pushAll (raster height width pixel) } filling
      rw [List.range_succ, List.flatMap_append, List.flatMap_singleton,
        run_append, induction, here, raster_succ]
      simp only [Panel.pushAll, List.foldl_append]

/-- The two loops of a drawing function paint its rectangle. -/
theorem paints_loops (sends : ∀ i j, SendsPixel (turn i j) (pixel i j))
    (x y width height : UInt8) :
    Paints
      (nv3021SetDisRange x.toUInt16 y.toUInt16 (width.toUInt16 - 1)
          (height.toUInt16 - 1) ++ [.cmd8 0x2c] ++
        (List.range height.toNat).flatMap fun i =>
          (List.range width.toNat).flatMap (turn i))
      x.toNat y.toNat width.toNat height.toNat pixel := by
  intro lcd column row
  have less {size : UInt8} (some_ : size.toNat ≠ 0) :
      (size.toUInt16 - 1).toNat = size.toNat - 1 := by
    have one : (1 : UInt16) ≤ size.toUInt16 := by
      rw [UInt16.le_iff_toNat_le, UInt8.toNat_toUInt16]
      exact Nat.one_le_iff_ne_zero.mpr some_
    rw [UInt16.toNat_sub_of_le _ _ one, UInt8.toNat_toUInt16]
    rfl
  have window (wide : width.toNat ≠ 0) (high : height.toNat ≠ 0) :
      (run lcdStep lcd (nv3021SetDisRange x.toUInt16 y.toUInt16
          (width.toUInt16 - 1) (height.toUInt16 - 1))).panel.window =
        rectangle x.toNat y.toNat width.toNat height.toNat := by
    have xSmall := x.toNat_lt
    have ySmall := y.toNat_lt
    have widthSmall := width.toNat_lt
    have heightSmall := height.toNat_lt
    rw [run_setDisRange lcd (by rw [less wide, UInt8.toNat_toUInt16]; omega)
      (by rw [less high, UInt8.toNat_toUInt16]; omega), less wide, less high,
      UInt8.toNat_toUInt16, UInt8.toNat_toUInt16]
    rfl
  have begun := run_concat lcdStep lcd (nv3021SetDisRange x.toUInt16
    y.toUInt16 (width.toUInt16 - 1) (height.toUInt16 - 1)) (.cmd8 0x2c)
  have filling : (run lcdStep lcd (nv3021SetDisRange x.toUInt16 y.toUInt16
      (width.toUInt16 - 1) (height.toUInt16 - 1) ++ [.cmd8 0x2c])).Filling := by
    rw [begun]
    exact ⟨rfl, rfl⟩
  rw [run_append, run_rows sends width.toNat height.toNat filling, begun]
  have painted := pushAll_raster window pixel column row
  rwa [run_setDisRange_cells] at painted

end

theorem nv3021ColorClr_paints (x y : UInt8) (colorData : UInt16)
    (width height : UInt8) :
    Paints (nv3021ColorClr x y colorData width height) x.toNat y.toNat
      width.toNat height.toNat fun _ _ => colorData :=
  paints_loops (fun _ _ => sendsPixel_dat16 colorData) x y width height

theorem nv3021DispBmpSingleByte_paints (x y : UInt8) (bmp : Nat → UInt8)
    (width height : UInt8) :
    Paints (nv3021DispBmpSingleByte x y bmp width height) x.toNat y.toNat
      width.toNat height.toNat fun i j =>
        UInt16.ofNat (pairValue (bmp (2 * (i * width.toNat + j)))
          (bmp (2 * (i * width.toNat + j) + 1))) :=
  paints_loops (fun _ _ => sendsPixel_bytes _ _ _ _) x y width height

theorem nv3021DispBmpDoubleByte_paints (x y : UInt8) (bmp : Nat → UInt16)
    (width height : UInt8) :
    Paints (nv3021DispBmpDoubleByte x y bmp width height) x.toNat y.toNat
      width.toNat height.toNat fun i j =>
        let temp := bmp ((height.toNat - i - 1) * width.toNat + j)
        (temp >>> 8) + (temp <<< 8) :=
  paints_loops (fun _ _ => (sendsPixel_dat16 _).read _) x y width height

theorem nv3021DispBit1bmpSingleByte_paints (bmp : Nat → UInt8)
    (x y width height : UInt8) (colorData backColor : UInt16) :
    Paints (nv3021DispBit1bmpSingleByte bmp x y width height colorData
        backColor) x.toNat y.toNat width.toNat height.toNat
      (bandPixel bmp colorData backColor height.toNat) := by
  apply paints_loops
  intro i j
  have bit := ByteBits.mask_iff_testBit (bmp (j + i / 8 * height.toNat))
    (i % 8) (Nat.mod_lt i (by decide))
  rw [bandPixel, bandOffset, ← bit]
  exact (sendsPixel_dat16 _).read _

/-- The four pictures paint the rectangle that they are given, whatever the
display was doing, and leave every other pixel as it is. -/
theorem pictures_paint (x y width height : UInt8) :
    (∀ colorData, Paints (nv3021ColorClr x y colorData width height)
      x.toNat y.toNat width.toNat height.toNat fun _ _ => colorData) ∧
    (∀ bmp, Paints (nv3021DispBmpSingleByte x y bmp width height)
      x.toNat y.toNat width.toNat height.toNat fun i j =>
        UInt16.ofNat (pairValue (bmp (2 * (i * width.toNat + j)))
          (bmp (2 * (i * width.toNat + j) + 1)))) ∧
    (∀ bmp, Paints (nv3021DispBmpDoubleByte x y bmp width height)
      x.toNat y.toNat width.toNat height.toNat fun i j =>
        let temp := bmp ((height.toNat - i - 1) * width.toNat + j)
        (temp >>> 8) + (temp <<< 8)) ∧
    ∀ bmp colorData backColor,
      Paints (nv3021DispBit1bmpSingleByte bmp x y width height colorData
          backColor) x.toNat y.toNat width.toNat height.toNat
        (bandPixel bmp colorData backColor height.toNat) := by
  refine ⟨?_, ?_, ?_, ?_⟩
  · intro colorData
    exact nv3021ColorClr_paints x y colorData width height
  · intro bmp
    exact nv3021DispBmpSingleByte_paints x y bmp width height
  · intro bmp
    exact nv3021DispBmpDoubleByte_paints x y bmp width height
  · intro bmp colorData backColor
    exact nv3021DispBit1bmpSingleByte_paints bmp x y width height colorData
      backColor

/-- The pixels of a frame: those of a rectangle that are not inside its
lines. -/
def OnFrame (x y width hight lineWidth column row : Nat) : Prop :=
  Inside x y width hight column row ∧
    ¬ Inside (x + lineWidth) (y + lineWidth) (width - 2 * lineWidth)
      (hight - 2 * lineWidth) column row

instance (x y width hight lineWidth column row : Nat) :
    Decidable (OnFrame x y width hight lineWidth column row) :=
  inferInstanceAs (Decidable (_ ∧ _))

theorem onFrame_iff_sides {x y width hight lineWidth column row : Nat}
    (thin : lineWidth ≤ width) (low : lineWidth ≤ hight) :
    OnFrame x y width hight lineWidth column row ↔
      Inside x (y + hight - lineWidth) width lineWidth column row ∨
      Inside (x + width - lineWidth) y lineWidth hight column row ∨
      Inside x y lineWidth hight column row ∨
      Inside x y width lineWidth column row := by
  unfold OnFrame Inside
  omega

theorem cut_toNat {coordinate : UInt16} (small : coordinate.toNat < 256) :
    coordinate.toUInt8.toNat = coordinate.toNat :=
  (UInt16.toNat_toUInt8 coordinate).trans (Nat.mod_eq_of_lt small)

theorem farSide_toNat {start length : UInt16} {lineWidth : UInt8}
    (thin : lineWidth.toNat ≤ length.toNat)
    (fits : start.toNat + length.toNat - lineWidth.toNat < 256) :
    (start + length - lineWidth.toUInt16).toUInt8.toNat =
      start.toNat + length.toNat - lineWidth.toNat := by
  have lineSmall := lineWidth.toNat_lt
  have sum : (start + length).toNat = start.toNat + length.toNat := by
    rw [UInt16.toNat_add]
    exact Nat.mod_eq_of_lt (by omega)
  have below : lineWidth.toUInt16 ≤ start + length := by
    rw [UInt16.le_iff_toNat_le, sum, UInt8.toNat_toUInt16]
    omega
  have difference : (start + length - lineWidth.toUInt16).toNat =
      start.toNat + length.toNat - lineWidth.toNat := by
    rw [UInt16.toNat_sub_of_le _ _ below, sum, UInt8.toNat_toUInt16]
  rw [cut_toNat (difference ▸ fits), difference]

/-- A picture gives the color of every pixel. -/
abbrev Picture := Nat → Nat → UInt16

def boxOver (x y width height : Nat) (color : UInt16) (before : Picture) :
    Picture :=
  fun column row =>
    if Inside x y width height column row then color else before column row

/-- The four boxes of a frame. -/
def frameOver (x y width hight : UInt16) (lineWidth : UInt8) (color : UInt16)
    (before : Picture) : Picture :=
  let left := x.toUInt8.toNat
  let right := (x + width - lineWidth.toUInt16).toUInt8.toNat
  let top := y.toUInt8.toNat
  let bottom := (y + hight - lineWidth.toUInt16).toUInt8.toNat
  let wide := width.toUInt8.toNat
  let high := hight.toUInt8.toNat
  boxOver left bottom wide lineWidth.toNat color
    (boxOver right top lineWidth.toNat high color
      (boxOver left top lineWidth.toNat high color
        (boxOver left top wide lineWidth.toNat color before)))

theorem nv3021ColorClr_over (x y : UInt8) (colorData : UInt16)
    (width height : UInt8) (lcd : Lcd) :
    (run lcdStep lcd (nv3021ColorClr x y colorData width height)).panel.cells =
      boxOver x.toNat y.toNat width.toNat height.toNat colorData
        lcd.panel.cells := by
  funext column row
  exact nv3021ColorClr_paints x y colorData width height lcd column row

theorem nv3021DispRange_over (x y width hight : UInt16) (lineWidth : UInt8)
    (color : UInt16) (lcd : Lcd) :
    (run lcdStep lcd (nv3021DispRange x y width hight lineWidth
        color)).panel.cells =
      frameOver x y width hight lineWidth color lcd.panel.cells := by
  rw [nv3021DispRange, run_append, nv3021ColorClr_over, run_append,
    nv3021ColorClr_over, run_append, nv3021ColorClr_over,
    nv3021ColorClr_over, frameOver]

/-- The boxes of a frame whose sides start within eight bits make the
frame. -/
theorem frameOver_eq {x y width hight : UInt16} {lineWidth : UInt8}
    (color : UInt16) (before : Picture) (xSmall : x.toNat < 256)
    (ySmall : y.toNat < 256) (widthSmall : width.toNat < 256)
    (hightSmall : hight.toNat < 256) (thin : lineWidth.toNat ≤ width.toNat)
    (low : lineWidth.toNat ≤ hight.toNat)
    (right : x.toNat + width.toNat - lineWidth.toNat < 256)
    (bottom : y.toNat + hight.toNat - lineWidth.toNat < 256)
    (column row : Nat) :
    frameOver x y width hight lineWidth color before column row =
      if OnFrame x.toNat y.toNat width.toNat hight.toNat lineWidth.toNat
          column row then color
      else before column row := by
  simp only [frameOver, boxOver, cut_toNat xSmall, cut_toNat ySmall,
    cut_toNat widthSmall, cut_toNat hightSmall, farSide_toNat thin right,
    farSide_toNat low bottom, onFrame_iff_sides thin low, ← ite_or]

/-- A frame whose sides start within eight bits is painted, and nothing
else is. -/
theorem frame_painted {x y width hight : UInt16} {lineWidth : UInt8}
    (color : UInt16) (xSmall : x.toNat < 256) (ySmall : y.toNat < 256)
    (widthSmall : width.toNat < 256) (hightSmall : hight.toNat < 256)
    (thin : lineWidth.toNat ≤ width.toNat)
    (low : lineWidth.toNat ≤ hight.toNat)
    (right : x.toNat + width.toNat - lineWidth.toNat < 256)
    (bottom : y.toNat + hight.toNat - lineWidth.toNat < 256)
    (lcd : Lcd) (column row : Nat) :
    (run lcdStep lcd (nv3021DispRange x y width hight lineWidth
        color)).panel.cells column row =
      if OnFrame x.toNat y.toNat width.toNat hight.toNat lineWidth.toNat
          column row then color
      else lcd.panel.cells column row := by
  rw [nv3021DispRange_over]
  exact frameOver_eq color _ xSmall ySmall widthSmall hightSmall thin low right
    bottom column row

/-- A frame of two lines around the whole display. -/
theorem frame_painted_display :
    (run lcdStep .blank
        (nv3021DispRange 0 0 160 128 2 0xF800)).panel.cells 159 127 =
      0xF800 ∧
    (run lcdStep .blank
        (nv3021DispRange 0 0 160 128 2 0xF800)).panel.cells 157 125 = 0 := by
  have painted := @frame_painted 0 0 160 128 2 0xF800 (by decide) (by decide)
    (by decide) (by decide) (by decide) (by decide) (by decide) (by decide)
    .blank
  constructor
  · rw [painted 159 127]
    exact if_pos (by decide)
  · rw [painted 157 125]
    exact if_neg (by decide)

end Tp79Boot
