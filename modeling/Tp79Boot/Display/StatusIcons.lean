import Tp79Boot.Display.BootLog
import Tp79Boot.Lib.Redraw

/-!
# The icons of the status bar

`ui.c` draws the icons of the signal, the battery and the positioning again
only when the value they stand for has changed, and it lets the battery rise by
one level only when a second reading is well above the bound.
-/

namespace Tp79Boot

open EventRun Redraw WindowedPanel

def rectangleStamp (x y width height : Nat) (pixel : Nat → Nat → UInt16) :
    Nat → Nat → Option UInt16 :=
  fun column row =>
    if Inside x y width height column row then
      some (pixel (row - y) (column - x))
    else none

section

variable {x y width height column row : Nat} {pixel : Nat → Nat → UInt16}

theorem rectangleStamp_inside
    (covered : rectangleStamp x y width height pixel column row ≠ none) :
    Inside x y width height column row := by
  by_contra outside
  exact covered (if_neg outside)

theorem Paints.lay {steps : List LcdStep}
    (paints : Paints steps x y width height pixel) (lcd : Lcd) :
    (run lcdStep lcd steps).panel.cells =
      Redraw.lay (rectangleStamp x y width height pixel) lcd.panel.cells := by
  funext column row
  rw [paints lcd column row, Redraw.lay]
  by_cases inside : Inside x y width height column row
  · rw [if_pos inside, rectangleStamp, if_pos inside, Option.getD_some]
  · rw [if_neg inside, rectangleStamp, if_neg inside, Option.getD_none]

end

/-- The arguments of `lcd_disp_box`. -/
structure Box where
  x : UInt8
  y : UInt8
  color : UInt16
  width : UInt8
  height : UInt8
deriving DecidableEq, Repr

namespace Box

def steps (box : Box) : List LcdStep :=
  nv3021ColorClr box.x box.y box.color box.width box.height

def stamp (box : Box) : Nat → Nat → Option UInt16 :=
  rectangleStamp box.x.toNat box.y.toNat box.width.toNat box.height.toNat
    fun _ _ => box.color

/-- The box has no column before `left` or from `right` on, and no row from
`bottom` on. -/
def Within (left right bottom : Nat) (box : Box) : Prop :=
  left ≤ box.x.toNat ∧ box.x.toNat + box.width.toNat ≤ right ∧
    box.y.toNat + box.height.toNat ≤ bottom

instance (left right bottom : Nat) (box : Box) :
    Decidable (box.Within left right bottom) :=
  inferInstanceAs (Decidable (_ ∧ _ ∧ _))

theorem run_steps (box : Box) (lcd : Lcd) :
    (run lcdStep lcd box.steps).panel.cells =
      lay box.stamp lcd.panel.cells :=
  (nv3021ColorClr_paints box.x box.y box.color box.width box.height).lay lcd

end Box

/-- The last box that covers a pixel gives its color. -/
def boxesStamp (boxes : List Box) : Nat → Nat → Option UInt16 :=
  fun column row =>
    boxes.foldl (fun under box => (box.stamp column row).or under) none

theorem boxesStamp_concat (boxes : List Box) (last : Box) :
    boxesStamp (boxes ++ [last]) = fun column row =>
      (last.stamp column row).or (boxesStamp boxes column row) := by
  funext column row
  rw [boxesStamp, List.foldl_append]
  rfl

theorem run_boxes (boxes : List Box) (lcd : Lcd) :
    (run lcdStep lcd (boxes.flatMap Box.steps)).panel.cells =
      lay (boxesStamp boxes) lcd.panel.cells := by
  induction boxes using List.reverseRecOn with
  | nil => rfl
  | append_singleton boxes last induction =>
      rw [List.flatMap_append, List.flatMap_singleton, run_append,
        Box.run_steps, induction, lay_lay, boxesStamp_concat]

theorem boxesStamp_within {left right bottom : Nat} {boxes : List Box}
    (within : ∀ box ∈ boxes, box.Within left right bottom)
    {column row : Nat} (covered : boxesStamp boxes column row ≠ none) :
    left ≤ column ∧ column < right ∧ row < bottom := by
  induction boxes using List.reverseRecOn with
  | nil => exact absurd rfl covered
  | append_singleton boxes last induction =>
      rw [boxesStamp_concat] at covered
      by_cases last : last.stamp column row = none
      · simp only [last, Option.none_or] at covered
        exact induction
          (fun box member => within box (List.mem_append_left _ member))
          covered
      · have inside := rectangleStamp_inside last
        obtain ⟨start, stop, below⟩ := within _ (List.mem_append_right _
          (List.mem_singleton.mpr rfl))
        exact ⟨Nat.le_trans start inside.1,
          Nat.lt_of_lt_of_le inside.2.1 stop,
          Nat.lt_of_lt_of_le inside.2.2.2 below⟩

def colorBlack : UInt16 := 0x0000

/-- The lowest three bars stand for more than 3, 10 and 18. -/
def signalBoxes (curSignal : UInt8) : List Box :=
  [⟨9, 10, colorBlack, 2, 3⟩, ⟨13, 8, colorBlack, 2, 5⟩,
    ⟨17, 6, colorBlack, 2, 7⟩, ⟨21, 4, colorBlack, 2, 9⟩] ++
  (if curSignal > 3 then [⟨9, 10, colorWight, 2, 3⟩] else []) ++
  (if curSignal > 10 then [⟨13, 8, colorWight, 2, 5⟩] else []) ++
  (if curSignal > 18 then [⟨17, 6, colorWight, 2, 7⟩] else []) ++
  (if curSignal > 24 then [⟨21, 4, colorWight, 2, 9⟩] else [])

def signalSteps (curSignal : UInt8) : List LcdStep :=
  (signalBoxes curSignal).flatMap Box.steps

/-- The static variable afterwards, and what is drawn. -/
def uiDispIcanSignal (csq oldSignal : UInt8) : UInt8 × List LcdStep :=
  if oldSignal ≠ csq then (csq, signalSteps csq) else (oldSignal, [])

/-- `BatLevelValue` of `ui_disp_ican_bat`. -/
def icanBatLevelValue : List Nat :=
  [2850, 3020, 3080, 3210, 3260, 3350, 3470, 3570, 3670, 3790, 3880, 4100, 5000]

/-- The first level that the reading is below, 13 if there is none. -/
def icanBatLevel (adcValue : UInt16) : UInt16 :=
  UInt16.ofNat (icanBatLevelValue.findIdx fun value => adcValue.toNat < value)

def batColor (curLevel : UInt16) : UInt16 :=
  if curLevel < 2 then colorRed else colorWight

def batBoxes (curLevel : UInt16) : List Box :=
  let color := batColor curLevel
  [⟨157, 6, color, 2, 4⟩, ⟨143, 6, colorBlack, 2, 4⟩,
    ⟨146, 6, colorBlack, 2, 4⟩, ⟨149, 6, colorBlack, 2, 4⟩,
    ⟨152, 6, colorBlack, 2, 4⟩] ++
  (if curLevel ≥ 2 then [⟨143, 6, color, 2, 4⟩] else []) ++
  (if curLevel ≥ 4 then [⟨146, 6, color, 2, 4⟩] else []) ++
  (if curLevel ≥ 6 then [⟨149, 6, color, 2, 4⟩] else []) ++
  (if curLevel ≥ 8 then [⟨152, 6, color, 2, 4⟩] else [])

def batSteps (curLevel : UInt16) : List LcdStep :=
  nv3021DispRange 140 3 17 10 2 (batColor curLevel) ++
    (batBoxes curLevel).flatMap Box.steps

/-- A second reading is taken only where the level is one above the one
shown. -/
def uiDispIcanBat (adcValue adcAgain oldLevel : UInt16) :
    UInt16 × List LcdStep :=
  let curLevel := icanBatLevel adcValue
  if oldLevel ≠ curLevel then
    if (curLevel > oldLevel ∧ curLevel.toNat = oldLevel.toNat + 1) ∧
        (adcAgain.toNat : Int) - icanBatLevelValue.getD oldLevel.toNat 0 < 50
    then (oldLevel, [])
    else (curLevel, batSteps curLevel)
  else (oldLevel, [])

/-- `GPS_dat`. -/
def gpsDat : List UInt8 :=
  [0x00, 0x00, 0x1C, 0x7E, 0xE7, 0xC3, 0xE7, 0x7E, 0x1C, 0x00, 0x00, 0x00,
    0x00, 0x00, 0x00, 0x00, 0x05, 0x07, 0x05, 0x00, 0x00, 0x00, 0x00, 0x00]

def gpsColor (curSignal : UInt8) : UInt16 :=
  if curSignal = 0x31 ∨ curSignal = 0x32 then colorWight else colorRed

def gpsSteps (curSignal : UInt8) : List LcdStep :=
  nv3021DispBit1bmpSingleByte (fun offset => gpsDat.getD offset 0) 120 3 12 12
    (gpsColor curSignal) colorBlack

def uiDispIcanGps (positionState oldSignal : UInt8) : UInt8 × List LcdStep :=
  if oldSignal ≠ positionState then (positionState, gpsSteps positionState)
  else (oldSignal, [])

inductive StatusIcon where
  | signal
  | bat
  | gps
deriving DecidableEq, Repr

namespace StatusIcon

/-- The type of the static variable. -/
@[reducible] def Key : StatusIcon → Type
  | .signal => UInt8
  | .bat => UInt16
  | .gps => UInt8

instance (icon : StatusIcon) : DecidableEq icon.Key :=
  match icon with
  | .signal => inferInstanceAs (DecidableEq UInt8)
  | .bat => inferInstanceAs (DecidableEq UInt16)
  | .gps => inferInstanceAs (DecidableEq UInt8)

/-- The boxes that `lcd_disp_range` draws. -/
def batFrame (color : UInt16) : List Box :=
  [⟨140, 3, color, 17, 2⟩, ⟨140, 3, color, 2, 10⟩, ⟨155, 3, color, 2, 10⟩,
    ⟨140, 11, color, 17, 2⟩]

/-- What the icon looks like for a value. -/
def stamp : (icon : StatusIcon) → icon.Key → Nat → Nat → Option UInt16
  | .signal, csq => boxesStamp (signalBoxes csq)
  | .bat, level => boxesStamp (batFrame (batColor level) ++ batBoxes level)
  | .gps, state =>
      rectangleStamp 120 3 12 12 (bandPixel
        (fun offset => gpsDat.getD offset 0) (gpsColor state) colorBlack 12)

/-- The columns of the icon. -/
def columns : StatusIcon → Nat × Nat
  | .signal => (9, 23)
  | .bat => (140, 159)
  | .gps => (120, 132)

theorem signalBoxes_within (csq : UInt8) :
    ∀ box ∈ signalBoxes csq, box.Within 9 23 16 := by
  intro box member
  simp only [signalBoxes, List.mem_append, List.mem_ite_nil_right,
    List.mem_cons, List.not_mem_nil, or_false] at member
  rcases member with ((((rfl | rfl | rfl | rfl) | ⟨_, rfl⟩) | ⟨_, rfl⟩) |
    ⟨_, rfl⟩) | ⟨_, rfl⟩ <;> decide

theorem batBoxes_within (level : UInt16) :
    ∀ box ∈ batFrame (batColor level) ++ batBoxes level,
      box.Within 140 159 16 := by
  intro box member
  simp only [batFrame, batBoxes, List.mem_append, List.mem_ite_nil_right,
    List.mem_cons, List.not_mem_nil, or_false] at member
  rcases member with (rfl | rfl | rfl | rfl) |
    ((((rfl | rfl | rfl | rfl | rfl) | ⟨_, rfl⟩) | ⟨_, rfl⟩) | ⟨_, rfl⟩) |
    ⟨_, rfl⟩ <;>
    exact ⟨by dsimp only; decide, by dsimp only; decide, by dsimp only; decide⟩

theorem stamp_place {icon : StatusIcon} {key : icon.Key} {column row : Nat}
    (covered : icon.stamp key column row ≠ none) :
    icon.columns.1 ≤ column ∧ column < icon.columns.2 ∧ row < 16 := by
  cases icon with
  | signal => exact boxesStamp_within (signalBoxes_within key) covered
  | bat => exact boxesStamp_within (batBoxes_within key) covered
  | gps =>
      have inside := rectangleStamp_inside covered
      exact ⟨inside.1, inside.2.1, Nat.lt_of_lt_of_le inside.2.2.2 (by decide)⟩

theorem noOverlap (icon other : StatusIcon) (key : icon.Key)
    (otherKey : other.Key) (different : icon ≠ other) :
    NoOverlap (icon.stamp key) (other.stamp otherKey) := by
  intro column row
  by_contra both
  rw [not_or] at both
  have here := stamp_place both.1
  have there := stamp_place both.2
  cases icon <;> cases other <;>
    first
    | exact absurd rfl different
    | (simp only [columns] at here there; omega)

def steps : (icon : StatusIcon) → icon.Key → List LcdStep
  | .signal => signalSteps
  | .bat => batSteps
  | .gps => gpsSteps

theorem batSteps_eq (level : UInt16) :
    batSteps level =
      (batFrame (batColor level) ++ batBoxes level).flatMap Box.steps := by
  rw [batSteps, nv3021DispRange, List.flatMap_append]
  simp only [batFrame, List.flatMap_cons, List.flatMap_nil, Box.steps,
    List.append_nil, List.append_assoc]
  rfl

/-- The drawing of an icon lays its stamp on the display. -/
theorem run_steps (icon : StatusIcon) (key : icon.Key) (lcd : Lcd) :
    (run lcdStep lcd (icon.steps key)).panel.cells =
      lay (icon.stamp key) lcd.panel.cells := by
  cases icon with
  | signal => exact run_boxes (signalBoxes key) lcd
  | bat =>
      have boxes := run_boxes (batFrame (batColor key) ++ batBoxes key) lcd
      rwa [← batSteps_eq] at boxes
  | gps =>
      have x : (120 : UInt8).toNat = 120 := rfl
      have y : (3 : UInt8).toNat = 3 := rfl
      have size : (12 : UInt8).toNat = 12 := rfl
      have paints := nv3021DispBit1bmpSingleByte_paints
        (fun offset => gpsDat.getD offset 0) 120 3 12 12 (gpsColor key)
        colorBlack
      rw [x, y, size] at paints
      rw [steps, gpsSteps, paints.lay, stamp]

end StatusIcon

end Tp79Boot
