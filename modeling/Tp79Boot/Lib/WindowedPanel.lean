import Tp79Boot.Lib.Raster

/-!
# Panels with a window

A panel has a cell at every column and row.  Values are sent to it one by one;
they fill the window that has been chosen row by row, and after its last cell
the first one comes again.
-/

namespace WindowedPanel

open Raster

/-- The first and the last column and row. -/
structure Window where
  left : Nat
  right : Nat
  top : Nat
  bottom : Nat
deriving DecidableEq

structure Panel (α : Type) where
  window : Window
  column : Nat
  row : Nat
  cells : Nat → Nat → α

variable {α : Type}

namespace Panel

/-- The next value goes to the first cell of the window. -/
def begin (panel : Panel α) : Panel α :=
  { panel with column := panel.window.left, row := panel.window.top }

def push (panel : Panel α) (value : α) : Panel α :=
  { panel with
    column :=
      if panel.column < panel.window.right then panel.column + 1
      else panel.window.left
    row :=
      if panel.column < panel.window.right then panel.row
      else if panel.row < panel.window.bottom then panel.row + 1
      else panel.window.top
    cells := fun column row =>
      if column = panel.column ∧ row = panel.row then value
      else panel.cells column row }

def pushAll (panel : Panel α) (values : List α) : Panel α :=
  values.foldl push panel

theorem pushAll_concat (panel : Panel α) (values : List α) (last : α) :
    panel.pushAll (values ++ [last]) = (panel.pushAll values).push last := by
  simp [pushAll]

end Panel

/-- The cell is in the rectangle. -/
def Inside (x y width height column row : Nat) : Prop :=
  x ≤ column ∧ column < x + width ∧ y ≤ row ∧ row < y + height

instance (x y width height column row : Nat) :
    Decidable (Inside x y width height column row) :=
  inferInstanceAs (Decidable (_ ∧ _))

/-- The window of a rectangle that is not empty. -/
def rectangle (x y width height : Nat) : Window :=
  { left := x
    right := x + (width - 1)
    top := y
    bottom := y + (height - 1) }

section

variable {x y width height : Nat} {panel : Panel α}

/-- Where the cursor is after some values. -/
structure Placed (x y width height sent : Nat) (panel : Panel α) : Prop where
  window : panel.window = rectangle x y width height
  column : panel.column = x + sent % width
  row : panel.row = y + sent / width % height

theorem Placed.begin (window : panel.window = rectangle x y width height) :
    Placed x y width height 0 panel.begin := by
  constructor
  · exact window
  · simp [Panel.begin, window, rectangle]
  · simp [Panel.begin, window, rectangle]

/-- The place after a place: the next one in the row, or the first one in the
next row. -/
theorem next_place (sent : Nat) {width : Nat} (wide : 0 < width) :
    (sent % width + 1 < width ∧ (sent + 1) % width = sent % width + 1 ∧
        (sent + 1) / width = sent / width) ∨
      (sent % width + 1 = width ∧ (sent + 1) % width = 0 ∧
        (sent + 1) / width = sent / width + 1) := by
  have split := Nat.div_add_mod sent width
  have inRow := Nat.mod_lt sent wide
  rcases Nat.lt_or_ge (sent % width + 1) width with before | last
  · left
    have next : sent + 1 = width * (sent / width) + (sent % width + 1) := by
      omega
    refine ⟨before, ?_, ?_⟩
    · exact (congrArg (· % width) next).trans
        ((Nat.mul_add_mod _ _ _).trans (Nat.mod_eq_of_lt before))
    · have quotient := congrArg (· / width) next
      simp only [Nat.mul_add_div wide, Nat.div_eq_of_lt before,
        Nat.add_zero] at quotient
      exact quotient
  · right
    have next : sent + 1 = width * (sent / width + 1) := by
      rw [Nat.mul_succ]
      omega
    refine ⟨by omega, ?_, ?_⟩
    · exact (congrArg (· % width) next).trans (Nat.mul_mod_right _ _)
    · exact (congrArg (· / width) next).trans
        (Nat.mul_div_cancel_left _ wide)

theorem Placed.push {sent : Nat} (placed : Placed x y width height sent panel)
    (wide : 0 < width) (high : 0 < height) (value : α) :
    Placed x y width height (sent + 1) (panel.push value) := by
  have rows := Nat.mod_lt (sent / width) high
  constructor
  · exact placed.window
  · simp only [Panel.push, placed.window, placed.column, rectangle]
    rcases next_place sent wide with ⟨before, column, _⟩ | ⟨last, column, _⟩
    · rw [if_pos (by omega), column, Nat.add_assoc]
    · rw [if_neg (by omega), column, Nat.add_zero]
  · simp only [Panel.push, placed.window, placed.column, placed.row,
      rectangle]
    rcases next_place sent wide with ⟨before, _, row⟩ | ⟨last, _, row⟩
    · rw [if_pos (by omega), row]
    · rw [if_neg (by omega), row]
      rcases next_place (sent / width) high with
        ⟨above, next, _⟩ | ⟨below, next, _⟩
      · rw [if_pos (by omega), next, Nat.add_assoc]
      · rw [if_neg (by omega), next, Nat.add_zero]

/-- After some values the cells they have reached are theirs. -/
theorem pushAll_cells (wide : 0 < width) (high : 0 < height)
    (window : panel.window = rectangle x y width height) {values : List α}
    (fits : values.length ≤ height * width) :
    Placed x y width height values.length (panel.begin.pushAll values) ∧
      ∀ column row, (panel.begin.pushAll values).cells column row =
        if Inside x y width height column row then
          (values[(row - y) * width + (column - x)]?).getD
            (panel.cells column row)
        else panel.cells column row := by
  induction values using List.reverseRecOn with
  | nil =>
      refine ⟨Placed.begin window, ?_⟩
      intro column row
      simp [Panel.pushAll, Panel.begin]
  | append_singleton values last induction =>
      rw [List.length_append, List.length_singleton] at fits
      obtain ⟨placed, cells⟩ := induction (by omega)
      rw [Panel.pushAll_concat]
      refine ⟨?_, ?_⟩
      · rw [List.length_append, List.length_singleton]
        exact placed.push wide high last
      intro column row
      have below : values.length / width < height :=
        Nat.div_lt_of_lt_mul (by rw [Nat.mul_comm]; omega)
      simp only [Panel.push, placed.column, placed.row,
        Nat.mod_eq_of_lt below]
      have inRow := Nat.mod_lt values.length wide
      have split := Nat.div_add_mod values.length width
      by_cases reached : column = x + values.length % width ∧
          row = y + values.length / width
      · rw [if_pos reached]
        obtain ⟨rfl, rfl⟩ := reached
        have inside : Inside x y width height (x + values.length % width)
            (y + values.length / width) :=
          ⟨Nat.le_add_right _ _, Nat.add_lt_add_left inRow x,
            Nat.le_add_right _ _, Nat.add_lt_add_left below y⟩
        rw [if_pos inside, Nat.add_sub_cancel_left, Nat.add_sub_cancel_left,
          Nat.mul_comm _ width, split,
          List.getElem?_append_right (Nat.le_refl _), Nat.sub_self]
        rfl
      · rw [if_neg reached, cells]
        by_cases inside : Inside x y width height column row
        · have other : (row - y) * width + (column - x) ≠ values.length := by
            intro same
            apply reached
            unfold Inside at inside
            have place : column - x < width := by omega
            rw [← same, Nat.mul_comm, Nat.mul_add_mod,
              Nat.mod_eq_of_lt place, Nat.mul_add_div wide,
              Nat.div_eq_of_lt place]
            omega
          rw [if_pos inside, if_pos inside]
          rcases Nat.lt_or_gt_of_ne other with earlier | later
          · rw [List.getElem?_append_left earlier]
          · have past : (values ++ [last]).length ≤
                (row - y) * width + (column - x) := by
              rw [List.length_append, List.length_singleton]
              exact later
            rw [List.getElem?_eq_none past,
              List.getElem?_eq_none (Nat.le_of_lt later)]
        · rw [if_neg inside, if_neg inside]

/-- A raster that is sent to its window is painted there, and nowhere else. -/
theorem pushAll_raster (window : width ≠ 0 → height ≠ 0 →
      panel.window = rectangle x y width height) (cell : Nat → Nat → α)
    (column row : Nat) :
    (panel.begin.pushAll (raster height width cell)).cells column row =
      if Inside x y width height column row then
        cell (row - y) (column - x)
      else panel.cells column row := by
  by_cases empty : width = 0 ∨ height = 0
  · have none : raster height width cell = [] := by
      apply List.length_eq_zero_iff.mp
      rw [raster_length]
      rcases empty with rfl | rfl
      · exact Nat.mul_zero _
      · exact Nat.zero_mul _
    rw [none, if_neg (by unfold Inside; omega)]
    rfl
  · rw [not_or] at empty
    rw [(pushAll_cells (Nat.pos_of_ne_zero empty.1)
      (Nat.pos_of_ne_zero empty.2) (window empty.1 empty.2)
      (Nat.le_of_eq (raster_length _ _ _))).2]
    by_cases inside : Inside x y width height column row
    · rw [if_pos inside, if_pos inside]
      unfold Inside at inside
      rw [raster_getElem? cell (by omega) (by omega)]
      rfl
    · rw [if_neg inside, if_neg inside]

end

end WindowedPanel
