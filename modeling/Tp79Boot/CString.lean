import Mathlib.Data.List.GetD
import Mathlib.Data.List.Range

/-!
# Bytes, buffers and C strings

A buffer is the list of the bytes from a pointer on.  Reading past the end of
the list gives zero: the receive buffer is cleared before a line is copied
into it, so a line is always read with zeros after it.
-/

namespace Tp79Boot

/-- The characters of a string literal, without the terminating zero. -/
def ascii (text : String) : List UInt8 :=
  text.toList.map fun character => character.toNat.toUInt8

def byteAt (memory : List UInt8) (offset : Nat) : UInt8 :=
  memory.getD offset 0

/-- `count` bytes from `offset` on. -/
def bytesAt (memory : List UInt8) (offset count : Nat) : List UInt8 :=
  (List.range count).map fun index => byteAt memory (offset + index)

/-- `memcmp(left + offset, right, count) == 0`. -/
def memcmpEq (left : List UInt8) (offset : Nat) (right : List UInt8)
    (count : Nat) : Prop :=
  bytesAt left offset count = bytesAt right 0 count

instance (left : List UInt8) (offset : Nat) (right : List UInt8)
    (count : Nat) : Decidable (memcmpEq left offset right count) :=
  inferInstanceAs (Decidable (_ = _))

def strlen (memory : List UInt8) : Nat :=
  (memory.takeWhile fun byte => byte != 0).length

/-- `memcpy(memory + offset, source, source.length)` inside `memory`. -/
def writeAt (memory : List UInt8) (offset : Nat) (source : List UInt8) :
    List UInt8 :=
  memory.take offset ++ source ++ memory.drop (offset + source.length)

@[simp] theorem bytesAt_length (memory : List UInt8) (offset count : Nat) :
    (bytesAt memory offset count).length = count := by
  simp [bytesAt]

@[simp] theorem bytesAt_getElem (memory : List UInt8) (offset count index : Nat)
    (bound : index < (bytesAt memory offset count).length) :
    (bytesAt memory offset count)[index] = byteAt memory (offset + index) := by
  simp [bytesAt]

theorem byteAt_append_left {front : List UInt8} {offset : Nat}
    (inside : offset < front.length) (rest : List UInt8) :
    byteAt (front ++ rest) offset = byteAt front offset :=
  List.getD_append _ _ _ _ inside

theorem byteAt_append_right (front rest : List UInt8) (offset : Nat) :
    byteAt (front ++ rest) (front.length + offset) = byteAt rest offset := by
  rw [byteAt, List.getD_append_right _ _ _ _ (Nat.le_add_right _ _),
    Nat.add_sub_cancel_left]
  rfl

theorem byteAt_of_lt {memory : List UInt8} {offset : Nat}
    (inside : offset < memory.length) :
    byteAt memory offset = memory[offset] := by
  simp [byteAt, inside]

theorem byteAt_of_length_le {memory : List UInt8} {offset : Nat}
    (past : memory.length ≤ offset) : byteAt memory offset = 0 :=
  List.getD_eq_default _ _ past

theorem byteAt_toList {size : Nat} (field : Vector UInt8 size) {index : Nat}
    (bound : index < size) : byteAt field.toList index = field[index] := by
  rw [byteAt_of_lt (by simpa using bound)]
  simp

theorem byteAt_replicate_zero (count offset : Nat) :
    byteAt (List.replicate count 0) offset = 0 := by
  rcases Nat.lt_or_ge offset count with inside | past
  · exact List.getD_replicate _ inside
  · exact byteAt_of_length_le (by simpa using past)

theorem byteAt_drop (memory : List UInt8) (count offset : Nat) :
    byteAt (memory.drop count) offset = byteAt memory (count + offset) := by
  simp [byteAt, List.getD_eq_getElem?_getD]

theorem byteAt_append_zeros (text : List UInt8) (count offset : Nat) :
    byteAt (text ++ List.replicate count 0) offset = byteAt text offset := by
  rcases Nat.lt_or_ge offset text.length with inside | past
  · exact byteAt_append_left inside _
  · obtain ⟨further, rfl⟩ := Nat.exists_eq_add_of_le past
    rw [byteAt_append_right, byteAt_replicate_zero,
      byteAt_of_length_le (Nat.le_add_right _ _)]

theorem byteAt_ne_zero {text : List UInt8} {offset : Nat}
    (nonzero : ∀ byte ∈ text, byte ≠ 0) (inside : offset < text.length) :
    byteAt text offset ≠ 0 := by
  rw [byteAt_of_lt inside]
  exact nonzero _ (List.getElem_mem inside)

theorem nonzero_of_all {text : List UInt8}
    (check : (text.all fun byte => byte != 0) = true) :
    ∀ byte ∈ text, byte ≠ 0 := by
  intro byte member
  exact bne_iff_ne.mp (List.all_eq_true.mp check byte member)

theorem bytesAt_eq_iff {left right : List UInt8}
    {leftOffset rightOffset count : Nat} :
    bytesAt left leftOffset count = bytesAt right rightOffset count ↔
      ∀ index, index < count →
        byteAt left (leftOffset + index) = byteAt right (rightOffset + index) := by
  simp [bytesAt, List.map_inj_left]

theorem eq_iff_byteAt {left right : List UInt8}
    (sameLength : left.length = right.length) :
    left = right ↔
      ∀ index, index < right.length → byteAt left index = byteAt right index := by
  constructor
  · rintro rfl index _
    rfl
  · intro same
    apply List.ext_getElem sameLength
    intro index inside bound
    have entry := same index bound
    rwa [byteAt_of_lt inside, byteAt_of_lt bound] at entry

theorem bytesAt_eq_take {memory : List UInt8} {offset count : Nat}
    (inside : offset + count ≤ memory.length) :
    bytesAt memory offset count = (memory.drop offset).take count := by
  apply List.ext_getElem
  · simp
    omega
  · intro index bound _
    have below : index < count := by simpa using bound
    rw [bytesAt_getElem, byteAt_of_lt (by omega)]
    simp

theorem memcmpEq_front {front : List UInt8} (rest literal : List UInt8)
    {count : Nat} (inside : count ≤ front.length) :
    memcmpEq (front ++ rest) 0 literal count ↔
      memcmpEq front 0 literal count := by
  unfold memcmpEq
  rw [bytesAt_eq_iff, bytesAt_eq_iff]
  refine forall₂_congr fun index bound => ?_
  rw [Nat.zero_add,
    byteAt_append_left (Nat.lt_of_lt_of_le bound inside)]

theorem strlen_cons (byte : UInt8) (memory : List UInt8) :
    strlen (byte :: memory) = if byte = 0 then 0 else strlen memory + 1 := by
  by_cases zero : byte = 0
  · simp [strlen, zero]
  · simp [strlen, zero]

theorem strlen_append_zeros (text : List UInt8) (count : Nat) :
    strlen (text ++ List.replicate count 0) = strlen text := by
  induction text with
  | nil =>
      cases count with
      | zero => rfl
      | succ count => rfl
  | cons byte text induction =>
      rw [List.cons_append, strlen_cons, strlen_cons, induction]

theorem strlen_of_nonzero {text : List UInt8}
    (nonzero : ∀ byte ∈ text, byte ≠ 0) : strlen text = text.length := by
  induction text with
  | nil => rfl
  | cons byte text induction =>
      obtain ⟨first, later⟩ := List.forall_mem_cons.mp nonzero
      rw [strlen_cons, if_neg first, induction later, List.length_cons]

theorem strlen_le_of_zero {memory : List UInt8} {place : Nat}
    (zero : byteAt memory place = 0) : strlen memory ≤ place := by
  induction memory generalizing place with
  | nil => exact Nat.zero_le place
  | cons byte memory induction =>
      rw [strlen_cons]
      split
      · exact Nat.zero_le place
      next nonzero =>
        cases place with
        | zero => exact absurd zero nonzero
        | succ place => exact Nat.succ_le_succ (induction zero)

theorem le_strlen {memory : List UInt8} {count : Nat}
    (nonzero : ∀ place, place < count → byteAt memory place ≠ 0) :
    count ≤ strlen memory := by
  by_contra short
  have below : strlen memory < count := Nat.lt_of_not_le short
  apply nonzero (strlen memory) below
  clear nonzero short below
  induction memory with
  | nil => rfl
  | cons byte memory induction =>
      rw [strlen_cons]
      split
      next zero => exact zero
      next => exact induction

end Tp79Boot
