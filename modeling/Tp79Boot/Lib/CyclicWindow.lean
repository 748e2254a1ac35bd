import Mathlib.Data.List.Nodup
import Mathlib.Data.Nat.ModEq

/-!
# Windows on a circle of records

`count` records numbered from one stand in a circle.  A window shows the ones
from a start on, one behind the other; as long as it is not longer than the
circle it shows none twice.
-/

namespace CyclicWindow

/-- The number of the record so far behind the start. -/
def record (count start offset : Nat) : Nat :=
  (start + offset) % count + 1

variable {count start : Nat}

theorem record_le (some : 0 < count) (offset : Nat) :
    record count start offset ≤ count :=
  Nat.mod_lt _ some

theorem record_succ (offset : Nat) :
    record count start (offset + 1) =
      record count start offset % count + 1 := by
  rw [record, record, Nat.mod_add_mod, Nat.add_assoc]

theorem record_selected {selected : Nat} (inside : selected < count)
    {offset : Nat} (within : offset ≤ selected + count * 2) :
    record count (selected + count * 2 - offset) offset = selected + 1 := by
  rw [record, Nat.sub_add_cancel within, Nat.add_mul_mod_self_left,
    Nat.mod_eq_of_lt inside]

theorem record_injective {first second : Nat} (firstInside : first < count)
    (secondInside : second < count)
    (same : record count start first = record count start second) :
    first = second := by
  have congruent : start + first ≡ start + second [MOD count] :=
    Nat.succ.inj same
  exact (Nat.ModEq.add_left_cancel' start congruent).eq_of_lt_of_lt
    firstInside secondInside

theorem exists_record {goal : Nat} (inside : goal < count) (start : Nat) :
    ∃ offset, offset < count ∧ (start + offset) % count = goal := by
  have some : 0 < count := Nat.zero_lt_of_lt inside
  have begun := Nat.mod_lt start some
  refine ⟨(goal + (count - start % count)) % count, Nat.mod_lt _ some, ?_⟩
  have around : start % count + (goal + (count - start % count)) =
      goal + count := by omega
  rw [Nat.add_mod, Nat.mod_mod, ← Nat.add_mod, ← Nat.mod_add_mod, around,
    Nat.add_mod_right, Nat.mod_eq_of_lt inside]

theorem window_nodup {size : Nat} (short : size ≤ count) :
    ((List.range size).map (record count start)).Nodup := by
  apply List.Nodup.map_on
  · intro first firstMember second secondMember same
    have firstInside := List.mem_range.mp firstMember
    have secondInside := List.mem_range.mp secondMember
    exact record_injective (Nat.lt_of_lt_of_le firstInside short)
      (Nat.lt_of_lt_of_le secondInside short) same
  · exact List.nodup_range

/-- Counting to a multiple of the length stands for the last record. -/
theorem record_of_remainder (some : 0 < count) (number : Nat) :
    (if number % count = 0 then count else number % count) =
      record count number (count - 1) := by
  have below : number % count < count := Nat.mod_lt _ some
  rw [record, Nat.add_mod, Nat.mod_eq_of_lt (Nat.sub_lt some Nat.one_pos)]
  generalize number % count = remainder at below ⊢
  split
  next zero =>
    rw [zero, Nat.zero_add, Nat.mod_eq_of_lt (Nat.sub_lt some Nat.one_pos)]
    exact (Nat.sub_add_cancel some).symm
  next positive =>
    have around : remainder + (count - 1) = remainder - 1 + count := by omega
    rw [around, Nat.add_mod_right, Nat.mod_eq_of_lt (by omega)]
    omega

end CyclicWindow
