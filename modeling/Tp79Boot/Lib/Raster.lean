import Mathlib.Algebra.Order.Group.Nat
import Mathlib.Data.List.Range

/-!
# Rows, columns and bands

A raster lists its cells row by row.  A banded picture keeps one bit for each
cell: the bytes of a band hold eight rows each, and the bands follow one
another a stride apart.
-/

namespace Raster

variable {α : Type}

/-- The cells row by row, each row from its first column. -/
def raster (rows columns : Nat) (cell : Nat → Nat → α) : List α :=
  (List.range rows).flatMap fun row => (List.range columns).map (cell row)

theorem raster_succ (rows columns : Nat) (cell : Nat → Nat → α) :
    raster (rows + 1) columns cell =
      raster rows columns cell ++ (List.range columns).map (cell rows) := by
  rw [raster, List.range_succ, List.flatMap_append, List.flatMap_singleton]
  rfl

theorem raster_length (rows columns : Nat) (cell : Nat → Nat → α) :
    (raster rows columns cell).length = rows * columns := by
  induction rows with
  | zero => exact (Nat.zero_mul columns).symm
  | succ rows induction =>
      rw [raster_succ, List.length_append, induction, List.length_map,
        List.length_range, Nat.succ_mul]

/-- The cell of a row and a column stands behind the rows above it. -/
theorem raster_getElem? {rows columns row column : Nat} (cell : Nat → Nat → α)
    (above : row < rows) (within : column < columns) :
    (raster rows columns cell)[row * columns + column]? =
      some (cell row column) := by
  induction rows with
  | zero => exact absurd above (Nat.not_lt_zero row)
  | succ rows induction =>
      rw [raster_succ]
      rcases Nat.lt_succ_iff_lt_or_eq.mp above with earlier | rfl
      · have inside : row * columns + column < rows * columns :=
          calc
            row * columns + column < row * columns + columns :=
              Nat.add_lt_add_left within _
            _ = (row + 1) * columns := (Nat.succ_mul row columns).symm
            _ ≤ rows * columns := Nat.mul_le_mul_right columns earlier
        rw [List.getElem?_append_left (by rw [raster_length]; exact inside)]
        exact induction earlier
      · rw [List.getElem?_append_right (by rw [raster_length]; omega),
          raster_length, Nat.add_sub_cancel_left, List.getElem?_map,
          List.getElem?_range within]
        rfl

/-- The byte with the bit of a cell, where the bands are `stride` apart. -/
def bandOffset (stride row column : Nat) : Nat :=
  column + row / 8 * stride

/-- How many bytes the bands of a picture take. -/
def bandBytes (width height : Nat) : Nat :=
  width * ((height + 7) / 8)

/-- How many rows of a picture fall into a band. -/
def bandRows (height band : Nat) : Nat :=
  min 8 (height - 8 * band)

/-- The rows of a picture are those of its bands. -/
theorem forall_row_iff (height : Nat) (holds : Nat → Nat → Prop) :
    (∀ row < height, holds (row / 8) (row % 8)) ↔
      ∀ band, ∀ bit < bandRows height band, holds band bit := by
  constructor
  · intro rows band bit inside
    rw [bandRows] at inside
    have row := rows (8 * band + bit) (by omega)
    rwa [Nat.mul_add_div (by decide), Nat.mul_add_mod,
      Nat.div_eq_of_lt (by omega), Nat.mod_eq_of_lt (by omega),
      Nat.add_zero] at row
  · intro bands row below
    apply bands
    rw [bandRows]
    omega

/-- Pictures with the bands a stride apart stay inside the bytes of their
bands if they are empty, of one band, or the stride is at most the width. -/
theorem bandOffset_inside_iff (width height stride : Nat) :
    (∀ row < height, ∀ column < width,
      bandOffset stride row column < bandBytes width height) ↔
      width = 0 ∨ height ≤ 8 ∨ stride ≤ width := by
  constructor
  · intro inside
    by_contra outside
    rw [not_or, not_or] at outside
    obtain ⟨wide, high, far⟩ := outside
    -- The last cell of the picture is the furthest.
    have last := inside (height - 1) (by omega) (width - 1) (by omega)
    have bands : (height + 7) / 8 = (height - 1) / 8 + 1 := by omega
    rw [bandOffset, bandBytes, bands, Nat.mul_succ, Nat.mul_comm width] at last
    have near : (height - 1) / 8 * stride ≤ (height - 1) / 8 * width := by
      omega
    exact far (Nat.le_of_mul_le_mul_left near (by omega))
  · intro small row below column within
    have bands : row / 8 + 1 ≤ (height + 7) / 8 := by omega
    have start : row / 8 * stride ≤ width * (row / 8) := by
      rcases small with empty | low | near
      · omega
      · rw [Nat.div_eq_of_lt (by omega), Nat.zero_mul]
        exact Nat.zero_le _
      · rw [Nat.mul_comm width]
        exact Nat.mul_le_mul_left _ near
    calc
      bandOffset stride row column
          ≤ column + width * (row / 8) := Nat.add_le_add_left start column
      _ < width + width * (row / 8) := Nat.add_lt_add_right within _
      _ = width * (row / 8 + 1) := by rw [Nat.mul_succ, Nat.add_comm]
      _ ≤ bandBytes width height := Nat.mul_le_mul_left width bands

end Raster
