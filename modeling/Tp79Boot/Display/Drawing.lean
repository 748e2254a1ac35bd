import Tp79Boot.Display.BootScreen

/-!
# Drawings as pictures

A picture gives the color of every pixel.  What the boot loader draws is kept
as a list of calls; each of them lays something over the picture before it, and
the controller shows the picture that the calls make one after another.
-/

namespace Tp79Boot

open EventRun WindowedPanel

section

variable (rom : Nat → UInt8) (stale : UInt32)

/-- A text; a pixel belongs to at most one of its characters. -/
def textOver (font : Font) (lowered : Nat) (wideRow : UInt8 → Bool)
    (x y : Nat) (gb2312Dat : List UInt8) (blackColor textColor : UInt16)
    (before : Picture) : Picture :=
  fun column row =>
    let covering := (charactersFrom wideRow 0 (cString gb2312Dat)).find?
      fun character => (character.place x font.step).Fits ∧
        character.Covers font x y column row
    match covering with
    | some character =>
        textPixel rom stale font lowered gb2312Dat blackColor textColor
          character (row - y) (column - (character.place x font.step).left)
    | none => before column row

def textOver15x16 : Nat → Nat → List UInt8 → UInt16 → UInt16 → Picture →
    Picture :=
  textOver rom stale font15x16 3 fun lead => WideRow15x16 lead

def textOver11x12 : Nat → Nat → List UInt8 → UInt16 → UInt16 → Picture →
    Picture :=
  textOver rom stale font11x12 0 fun lead => WideRow11x12 lead

theorem ShowsText.eq_textOver {font : Font} {lowered x y : Nat}
    {gb2312Dat : List UInt8} {blackColor textColor : UInt16}
    {wideRow : UInt8 → Bool} {before after : Picture}
    (shows : ShowsText rom stale font lowered x y gb2312Dat blackColor
      textColor wideRow before after) :
    after = textOver rom stale font lowered wideRow x y gb2312Dat blackColor
      textColor before := by
  funext column row
  rw [textOver]
  cases found : (charactersFrom wideRow 0 (cString gb2312Dat)).find?
      fun character => (character.place x font.step).Fits ∧
        character.Covers font x y column row with
  | some character =>
      have covers := List.find?_some found
      obtain ⟨fits, covered⟩ := of_decide_eq_true covers
      exact shows.shown character (List.mem_of_find?_eq_some found) fits column
        row covered
  | none =>
      apply shows.kept
      intro character member fits covered
      have missed := List.find?_eq_none.mp found character member
      exact missed (decide_eq_true ⟨fits, covered⟩)

end

/-- The calls of the boot loader that draw. -/
inductive Drawing where
  | box (x y : UInt8) (color : UInt16) (width height : UInt8)
  | frame (x y width hight : UInt16) (lineWidth : UInt8) (color : UInt16)
  | china15x16 (x y : UInt16) (gb2312Dat : List UInt8)
      (blackColor textColor : UInt16)
  | china11x12 (x y : UInt16) (gb2312Dat : List UInt8)
      (blackColor textColor : UInt16)
deriving DecidableEq, Repr

namespace Drawing

section

variable (rom : Nat → UInt8) (stale : UInt32)

def steps : Drawing → List LcdStep
  | .box x y color width height => nv3021ColorClr x y color width height
  | .frame x y width hight lineWidth color =>
      nv3021DispRange x y width hight lineWidth color
  | .china15x16 x y gb2312Dat blackColor textColor =>
      ((uiDispChina15x16 rom stale x y gb2312Dat blackColor textColor).getD
        []).flatMap Cell.steps
  | .china11x12 x y gb2312Dat blackColor textColor =>
      ((uiDispChina11x12 rom stale x y gb2312Dat blackColor textColor).getD
        []).flatMap Cell.steps

def overlay : Drawing → Picture → Picture
  | .box x y color width height =>
      boxOver x.toNat y.toNat width.toNat height.toNat color
  | .frame x y width hight lineWidth color =>
      frameOver x y width hight lineWidth color
  | .china15x16 x y gb2312Dat blackColor textColor =>
      textOver15x16 rom stale x.toNat y.toNat gb2312Dat blackColor textColor
  | .china11x12 x y gb2312Dat blackColor textColor =>
      textOver11x12 rom stale x.toNat y.toNat gb2312Dat blackColor textColor

/-- A string that the counter can run through, at a row of eight bits. -/
def Proper : Drawing → Prop
  | .box .. => True
  | .frame .. => True
  | .china15x16 _ y gb2312Dat _ _ =>
      y.toNat + 8 < 256 ∧ strlen gb2312Dat < 65536
  | .china11x12 _ y gb2312Dat _ _ =>
      y.toNat + 8 < 256 ∧ strlen gb2312Dat < 65536

theorem run_steps {drawing : Drawing} (proper : drawing.Proper) (lcd : Lcd) :
    (run lcdStep lcd (drawing.steps rom stale)).panel.cells =
      drawing.overlay rom stale lcd.panel.cells := by
  cases drawing with
  | box x y color width height =>
      exact nv3021ColorClr_over x y color width height lcd
  | frame x y width hight lineWidth color =>
      exact nv3021DispRange_over x y width hight lineWidth color lcd
  | china15x16 x y gb2312Dat blackColor textColor =>
      obtain ⟨cells, drawn, shows⟩ := uiDispChina_showsText font15x16_suits
        font15x16_renders (by decide) proper.1 proper.2 lcd
      have result : uiDispChina15x16 rom stale x y gb2312Dat blackColor
          textColor = some cells := drawn
      rw [steps, result]
      exact shows.eq_textOver
  | china11x12 x y gb2312Dat blackColor textColor =>
      obtain ⟨cells, drawn, shows⟩ := uiDispChina_showsText font11x12_suits
        font11x12_renders (by decide) proper.1 proper.2 lcd
      have result : uiDispChina11x12 rom stale x y gb2312Dat blackColor
          textColor = some cells := drawn
      rw [steps, result]
      exact shows.eq_textOver

end

end Drawing

/-- The picture that calls make over the one before. -/
def drawn (rom : Nat → UInt8) (stale : UInt32) (before : Picture)
    (drawings : List Drawing) : Picture :=
  drawings.foldl (fun picture drawing => drawing.overlay rom stale picture)
    before

theorem run_drawings (rom : Nat → UInt8) (stale : UInt32)
    {drawings : List Drawing} (proper : ∀ drawing ∈ drawings, drawing.Proper)
    (lcd : Lcd) :
    (run lcdStep lcd (drawings.flatMap (Drawing.steps rom stale))).panel.cells =
      drawn rom stale lcd.panel.cells drawings := by
  induction drawings generalizing lcd with
  | nil => rfl
  | cons drawing drawings induction =>
      rw [List.flatMap_cons, run_append, drawn, List.foldl_cons,
        ← Drawing.run_steps rom stale (proper drawing List.mem_cons_self) lcd]
      exact induction
        (fun later member => proper later (List.mem_cons_of_mem _ member)) _

namespace Drawing

/-- The rows between which a call may change pixels. -/
def rows : Drawing → Nat × Nat
  | .box _ y _ _ height => (y.toNat, y.toNat + height.toNat)
  | .frame _ y _ hight lineWidth _ =>
      let top := y.toUInt8.toNat
      let bottom := (y + hight - lineWidth.toUInt16).toUInt8.toNat
      (min top bottom, max (top + max lineWidth.toNat hight.toUInt8.toNat)
        (bottom + lineWidth.toNat))
  | .china15x16 _ y _ _ _ => (y.toNat, y.toNat + 16)
  | .china11x12 _ y _ _ _ => (y.toNat, y.toNat + 13)

def Touches (drawing : Drawing) (row : Nat) : Prop :=
  drawing.rows.1 ≤ row ∧ row < drawing.rows.2

end Drawing

section

variable {rom : Nat → UInt8} {stale : UInt32} {column row : Nat}

theorem boxOver_outside {x y width height : Nat} (color : UInt16)
    (before : Picture) (outside : ¬ (y ≤ row ∧ row < y + height)) :
    boxOver x y width height color before column row = before column row :=
  if_neg fun inside => outside ⟨inside.2.2.1, inside.2.2.2⟩

theorem textOver_outside {font : Font} {lowered x y rows : Nat}
    {wideRow : UInt8 → Bool} {gb2312Dat : List UInt8}
    {blackColor textColor : UInt16} (before : Picture)
    (narrow : font.narrow.rows ≤ rows) (wide : font.wide.rows ≤ rows)
    (outside : ¬ (y ≤ row ∧ row < y + rows)) :
    textOver rom stale font lowered wideRow x y gb2312Dat blackColor textColor
      before column row = before column row := by
  have tall (character : Character) : (font.face character).rows ≤ rows := by
    rw [Font.face]
    split
    · exact narrow
    · exact wide
  have none : (charactersFrom wideRow 0 (cString gb2312Dat)).find?
      (fun character => (character.place x font.step).Fits ∧
        character.Covers font x y column row) = none := by
    apply List.find?_eq_none.mpr
    intro character _ covers
    have covered := (of_decide_eq_true covers).2
    have below := tall character
    unfold Character.Covers Inside at covered
    omega
  rw [textOver, none]

theorem textOver_congr {font : Font} {lowered x y : Nat}
    {wideRow : UInt8 → Bool} {gb2312Dat : List UInt8}
    {blackColor textColor : UInt16} {before other : Picture}
    (same : before column row = other column row) :
    textOver rom stale font lowered wideRow x y gb2312Dat blackColor textColor
        before column row =
      textOver rom stale font lowered wideRow x y gb2312Dat blackColor
        textColor other column row := by
  rw [textOver, textOver, same]

theorem Drawing.overlay_untouched {drawing : Drawing} (before : Picture)
    (untouched : ¬ drawing.Touches row) :
    drawing.overlay rom stale before column row = before column row := by
  cases drawing with
  | box x y color width height => exact boxOver_outside color before untouched
  | frame x y width hight lineWidth color =>
      simp only [Touches, rows] at untouched
      rw [overlay, frameOver, boxOver_outside _ _ (by omega),
        boxOver_outside _ _ (by omega), boxOver_outside _ _ (by omega),
        boxOver_outside _ _ (by omega)]
  | china15x16 =>
      exact textOver_outside before (by decide) (by decide) untouched
  | china11x12 =>
      exact textOver_outside before (by decide) (by decide) untouched

theorem Drawing.overlay_congr (drawing : Drawing) {before other : Picture}
    (same : before column row = other column row) :
    drawing.overlay rom stale before column row =
      drawing.overlay rom stale other column row := by
  have box {x y width height : Nat} {color : UInt16} {before other : Picture}
      (same : before column row = other column row) :
      boxOver x y width height color before column row =
        boxOver x y width height color other column row := by
    rw [boxOver, boxOver, same]
  cases drawing with
  | box => exact box same
  | frame => exact box (box (box (box same)))
  | china15x16 => exact textOver_congr same
  | china11x12 => exact textOver_congr same

theorem drawn_cons (before : Picture) (drawing : Drawing)
    (drawings : List Drawing) :
    drawn rom stale before (drawing :: drawings) =
      drawn rom stale (drawing.overlay rom stale before) drawings :=
  rfl

theorem drawn_append (before : Picture) (first second : List Drawing) :
    drawn rom stale before (first ++ second) =
      drawn rom stale (drawn rom stale before first) second := by
  rw [drawn, List.foldl_append, drawn, drawn]

theorem drawn_congr {drawings : List Drawing} {before other : Picture}
    (same : before column row = other column row) :
    drawn rom stale before drawings column row =
      drawn rom stale other drawings column row := by
  induction drawings generalizing before other with
  | nil => exact same
  | cons drawing drawings induction =>
      exact induction (drawing.overlay_congr same)

theorem drawn_untouched (before : Picture) {drawings : List Drawing}
    (untouched : ∀ drawing ∈ drawings, ¬ drawing.Touches row) :
    drawn rom stale before drawings column row = before column row := by
  induction drawings generalizing before with
  | nil => rfl
  | cons drawing drawings induction =>
      have later := induction (drawing.overlay rom stale before)
        fun other member => untouched other (List.mem_cons_of_mem _ member)
      exact later.trans (Drawing.overlay_untouched before
        (untouched drawing List.mem_cons_self))

/-- Where calls belong to different parts, those of the other parts do not
matter for a pixel that they do not touch. -/
theorem drawn_labelled {label : Type} [DecidableEq label] {own : label}
    (before : Picture) {calls : List (label × Drawing)}
    (others : ∀ call ∈ calls, call.1 ≠ own → ¬ call.2.Touches row) :
    drawn rom stale before (calls.map (·.2)) column row =
      drawn rom stale before ((calls.filter (·.1 = own)).map (·.2)) column
        row := by
  induction calls generalizing before with
  | nil => rfl
  | cons call calls induction =>
      have later (before : Picture) := induction before
        fun other member => others other (List.mem_cons_of_mem _ member)
      by_cases same : call.1 = own
      · rw [List.filter_cons, if_pos (decide_eq_true same)]
        exact later (call.2.overlay rom stale before)
      · have untouched := others call List.mem_cons_self same
        rw [List.filter_cons, if_neg (by simpa using same), ← later before]
        exact drawn_congr (Drawing.overlay_untouched before untouched)

end

end Tp79Boot
