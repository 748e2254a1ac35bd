import Mathlib.Data.List.Basic

/-!
# A bounded log in numbered slots

The entries of a log are kept in slots that are used round and round; a total
count says where the next one goes.  Read newest first, the slots show a list
of at most as many entries as there are slots.
-/

namespace SlotLog

variable {α : Type}

/-- Going back from the next slot, the slots hold the entries of the log. -/
structure Shows (capacity : Nat) (slots : Nat → α) (total : Nat)
    (log : List α) : Prop where
  length : log.length = min total capacity
  entry : ∀ place (bound : place < log.length),
    slots ((total - (place + 1)) % capacity) = log[place]

variable {capacity total index : Nat} {slots after : Nat → α} {log : List α}

theorem shows_nil : Shows capacity slots 0 [] := by
  constructor
  · exact (Nat.zero_min capacity).symm
  · intro place bound
    cases bound

theorem slot_ne_next {back : Nat} (positive : 0 < back)
    (inside : back < capacity) (written : back ≤ total) :
    (total - back) % capacity ≠ total % capacity := by
  intro same
  have multiple : (total - (total - back)) % capacity = 0 :=
    Nat.sub_mod_eq_zero_of_mod_eq same.symm
  rw [Nat.sub_sub_self written, Nat.mod_eq_of_lt inside] at multiple
  exact absurd multiple (Nat.ne_of_gt positive)

/-- A new entry goes to the next slot; the oldest makes room for it. -/
theorem Shows.push {entry : α} (shows : Shows capacity slots total log)
    (positive : 0 < capacity) (here : after (total % capacity) = entry)
    (elsewhere : ∀ slot, slot < capacity → slot ≠ total % capacity →
      after slot = slots slot) :
    Shows capacity after (total + 1) ((entry :: log).take capacity) := by
  constructor
  · rw [List.length_take, List.length_cons, shows.length]
    omega
  · intro place bound
    rw [List.length_take, List.length_cons, shows.length] at bound
    rw [List.getElem_take]
    cases place with
    | zero => exact here
    | succ place =>
        have earlier : place < log.length := by
          rw [shows.length]
          omega
        have position : total + 1 - (place + 1 + 1) = total - (place + 1) :=
          Nat.add_sub_add_right _ _ _
        have other := slot_ne_next (Nat.succ_pos place)
          (by omega : place + 1 < capacity) (by omega : place + 1 ≤ total)
        rw [position, elsewhere _ (Nat.mod_lt _ positive) other,
          shows.entry place earlier, List.getElem_cons_succ]

/-- While the slots have not come round, an entry is removed by moving the
newer ones down by a slot. -/
theorem Shows.remove (shows : Shows capacity slots total log)
    (small : total < capacity) (inside : index < log.length)
    (older : ∀ slot, slot + 1 + index < total → after slot = slots slot)
    (newer : ∀ slot, total ≤ slot + 1 + index → slot + 1 < total →
      after slot = slots (slot + 1)) :
    Shows capacity after (total - 1) (log.eraseIdx index) := by
  have full : log.length = total := by
    rw [shows.length]
    exact Nat.min_eq_left (Nat.le_of_lt small)
  constructor
  · rw [List.length_eraseIdx_of_lt inside, full]
    omega
  · intro place bound
    rw [List.length_eraseIdx_of_lt inside, full] at bound
    have slot : (total - 1 - (place + 1)) % capacity =
        total - (place + 2) := by
      rw [Nat.sub_sub, Nat.mod_eq_of_lt (by omega)]
      omega
    rw [slot, List.getElem_eraseIdx]
    split
    · rename_i front
      have entry := shows.entry place (by omega)
      have position : (total - (place + 1)) % capacity =
          total - (place + 2) + 1 := by
        rw [Nat.mod_eq_of_lt (by omega)]
        omega
      rw [newer _ (by omega) (by omega), ← position, entry]
    · rename_i back
      have entry := shows.entry (place + 1) (by omega)
      have position : (total - (place + 1 + 1)) % capacity =
          total - (place + 2) :=
        Nat.mod_eq_of_lt (by omega)
      rw [older _ (by omega), ← position, entry]

end SlotLog
