import Mathlib.Data.List.Range

/-!
# Ring buffers

A ring of fixed capacity with a reading and a writing position.  One cell
always stays free, so equal positions mean that nothing is unread.  The unread
cells, in arrival order, are the ring's contents; pushing appends to them and
advancing drops from their front, wherever the positions stand.
-/

structure RingBuffer (α : Type) (capacity : Nat) where
  cells : Vector α capacity
  writeP : Nat
  readP : Nat
  writeP_lt : writeP < capacity
  readP_lt : readP < capacity

namespace RingBuffer

variable {α : Type} {capacity : Nat}

theorem capacity_pos (ring : RingBuffer α capacity) : 0 < capacity :=
  Nat.zero_lt_of_lt ring.readP_lt

theorem mod_cases {capacity index : Nat} (once : index < 2 * capacity) :
    (index < capacity ∧ index % capacity = index) ∨
      (capacity ≤ index ∧ index % capacity = index - capacity) := by
  rcases Nat.lt_or_ge index capacity with below | past
  · exact .inl ⟨below, Nat.mod_eq_of_lt below⟩
  · refine .inr ⟨past, ?_⟩
    rw [Nat.mod_eq_sub_mod past, Nat.mod_eq_of_lt (by omega)]

/-- Number of unread cells. -/
def backlog (ring : RingBuffer α capacity) : Nat :=
  (ring.writeP + capacity - ring.readP) % capacity

/-- The cell `offset` places after the reading position. -/
def cell (ring : RingBuffer α capacity) (offset : Nat) : α :=
  have bound : (ring.readP + offset) % capacity < capacity :=
    Nat.mod_lt _ ring.capacity_pos
  ring.cells[(ring.readP + offset) % capacity]

/-- The unread cells, oldest first. -/
def contents (ring : RingBuffer α capacity) : List α :=
  (List.range ring.backlog).map ring.cell

def Full (ring : RingBuffer α capacity) : Prop :=
  (ring.writeP + 1) % capacity = ring.readP

instance (ring : RingBuffer α capacity) : Decidable ring.Full :=
  inferInstanceAs (Decidable (_ = _))

/-- Store at the writing position and move it on. -/
def push (ring : RingBuffer α capacity) (value : α) : RingBuffer α capacity :=
  { cells := ring.cells.set ring.writeP value ring.writeP_lt
    writeP := (ring.writeP + 1) % capacity
    readP := ring.readP
    writeP_lt := Nat.mod_lt _ ring.capacity_pos
    readP_lt := ring.readP_lt }

/-- Move the reading position on by `count` cells. -/
def advance (ring : RingBuffer α capacity) (count : Nat) : RingBuffer α capacity :=
  { cells := ring.cells
    writeP := ring.writeP
    readP := (ring.readP + count) % capacity
    writeP_lt := ring.writeP_lt
    readP_lt := Nat.mod_lt _ ring.capacity_pos }

/-- Put both positions back to the first cell. -/
def rewind (ring : RingBuffer α capacity) : RingBuffer α capacity :=
  { cells := ring.cells
    writeP := 0
    readP := 0
    writeP_lt := ring.capacity_pos
    readP_lt := ring.capacity_pos }

theorem backlog_cases (ring : RingBuffer α capacity) :
    (ring.readP ≤ ring.writeP ∧ ring.backlog = ring.writeP - ring.readP) ∨
      (ring.writeP < ring.readP ∧
        ring.backlog = capacity - ring.readP + ring.writeP) := by
  have readBelow := ring.readP_lt
  have writeBelow := ring.writeP_lt
  have wrapped : ring.writeP + capacity - ring.readP < 2 * capacity := by omega
  have position := mod_cases wrapped
  rw [← backlog] at position
  omega

theorem backlog_lt (ring : RingBuffer α capacity) : ring.backlog < capacity :=
  Nat.mod_lt _ ring.capacity_pos

theorem backlog_eq_zero_iff (ring : RingBuffer α capacity) :
    ring.backlog = 0 ↔ ring.readP = ring.writeP := by
  have readBelow := ring.readP_lt
  have unread := ring.backlog_cases
  omega

theorem full_iff (ring : RingBuffer α capacity) :
    ring.Full ↔ ring.backlog + 1 = capacity := by
  have readBelow := ring.readP_lt
  have writeBelow := ring.writeP_lt
  have unread := ring.backlog_cases
  have next : ring.writeP + 1 < 2 * capacity := by omega
  have position := mod_cases next
  rw [Full]
  omega

@[simp] theorem contents_length (ring : RingBuffer α capacity) :
    ring.contents.length = ring.backlog := by
  simp [contents]

theorem contents_getElem (ring : RingBuffer α capacity) (index : Nat)
    (bound : index < ring.contents.length) :
    ring.contents[index] = ring.cell index := by
  simp [contents]

theorem contents_eq_nil_iff (ring : RingBuffer α capacity) :
    ring.contents = [] ↔ ring.readP = ring.writeP := by
  rw [← List.length_eq_zero_iff, contents_length, backlog_eq_zero_iff]

theorem backlog_push {ring : RingBuffer α capacity} (room : ¬ring.Full)
    (value : α) : (ring.push value).backlog = ring.backlog + 1 := by
  have readBelow := ring.readP_lt
  have writeBelow := ring.writeP_lt
  have next : ring.writeP + 1 < 2 * capacity := by omega
  have position := mod_cases next
  have before := ring.backlog_cases
  have after := (ring.push value).backlog_cases
  simp only [push] at after
  rw [full_iff] at room
  simp only [push]
  omega

theorem cell_push_old {ring : RingBuffer α capacity} {value : α}
    {offset : Nat} (unread : offset < ring.backlog) :
    (ring.push value).cell offset = ring.cell offset := by
  have readBelow := ring.readP_lt
  have writeBelow := ring.writeP_lt
  have below := ring.backlog_lt
  have backlog := ring.backlog_cases
  have once : ring.readP + offset < 2 * capacity := by omega
  have position := mod_cases once
  have elsewhere : ring.writeP ≠ (ring.readP + offset) % capacity := by omega
  simp [cell, push, elsewhere]

private theorem cell_push_new {ring : RingBuffer α capacity} {value : α} :
    (ring.push value).cell ring.backlog = value := by
  have readBelow := ring.readP_lt
  have writeBelow := ring.writeP_lt
  have below := ring.backlog_lt
  have backlog := ring.backlog_cases
  have once : ring.readP + ring.backlog < 2 * capacity := by omega
  have position := mod_cases once
  have reached : ring.writeP = (ring.readP + ring.backlog) % capacity := by
    omega
  simp [cell, push, ← reached]

theorem contents_push {ring : RingBuffer α capacity} (room : ¬ring.Full)
    (value : α) : (ring.push value).contents = ring.contents ++ [value] := by
  rw [contents, backlog_push room, List.range_succ, List.map_append,
    List.map_singleton, cell_push_new]
  congr 1
  apply List.map_congr_left
  intro offset member
  exact cell_push_old (List.mem_range.mp member)

theorem backlog_advance {ring : RingBuffer α capacity} {count : Nat}
    (unread : count ≤ ring.backlog) :
    (ring.advance count).backlog = ring.backlog - count := by
  have readBelow := ring.readP_lt
  have writeBelow := ring.writeP_lt
  have below := ring.backlog_lt
  have before := ring.backlog_cases
  have once : ring.readP + count < 2 * capacity := by omega
  have position := mod_cases once
  have after := (ring.advance count).backlog_cases
  simp only [advance] at after ⊢
  omega

theorem cell_advance (ring : RingBuffer α capacity) (count offset : Nat) :
    (ring.advance count).cell offset = ring.cell (count + offset) := by
  simp [cell, advance, Nat.add_assoc]

theorem contents_advance {ring : RingBuffer α capacity} {count : Nat}
    (unread : count ≤ ring.backlog) :
    (ring.advance count).contents = ring.contents.drop count := by
  apply List.ext_getElem
  · simp [backlog_advance unread]
  · intro index _ _
    rw [contents_getElem, cell_advance, List.getElem_drop, contents_getElem]

@[simp] theorem contents_rewind (ring : RingBuffer α capacity) :
    ring.rewind.contents = [] :=
  (contents_eq_nil_iff _).mpr rfl

/-- Reading from the reading position to the end of the cells and going on at
the first cell meets the contents in order. -/
theorem contents_take (ring : RingBuffer α capacity) {count : Nat}
    (unread : count ≤ ring.backlog) :
    ring.contents.take count =
      (ring.cells.toList.drop ring.readP ++ ring.cells.toList).take count := by
  have readBelow := ring.readP_lt
  have below := ring.backlog_lt
  apply List.ext_getElem
  · simp
    omega
  · intro index bound _
    have within : index < count := by
      simp only [List.length_take] at bound
      omega
    rw [List.getElem_take, List.getElem_take, contents_getElem]
    simp only [cell, List.getElem_append,
      List.getElem_drop, Vector.getElem_toList, List.length_drop,
      Vector.length_toList]
    split
    next front => simp only [Nat.mod_eq_of_lt (by omega :
        ring.readP + index < capacity)]
    next wrapped =>
      have once : ring.readP + index < 2 * capacity := by omega
      have position : (ring.readP + index) % capacity =
          index - (capacity - ring.readP) := by
        have wrap := mod_cases once
        omega
      simp only [position]

end RingBuffer
