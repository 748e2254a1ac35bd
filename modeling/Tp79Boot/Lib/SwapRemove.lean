import Mathlib.Data.List.Perm.Basic

/-!
# Removal by moving the last item

Where order does not matter an item is removed from an array by moving the
last one into its place.
-/

namespace SwapRemove

variable {α : Type}

def swapRemove (items : List α) (index : Nat) : List α :=
  match items.getLast? with
  | none => []
  | some last => (items.set index last).dropLast

variable {items : List α} {index : Nat}

theorem swapRemove_concat (front : List α) (last : α) (index : Nat) :
    swapRemove (front ++ [last]) index =
      ((front ++ [last]).set index last).dropLast := by
  simp [swapRemove]

@[simp] theorem swapRemove_length :
    (swapRemove items index).length = items.length - 1 := by
  rcases List.eq_nil_or_concat items with rfl | ⟨front, last, rfl⟩
  · rfl
  · simp [swapRemove_concat]

theorem swapRemove_getElem {place : Nat}
    (bound : place < (swapRemove items index).length)
    (inside : place < items.length) (final : items.length - 1 < items.length) :
    (swapRemove items index)[place] =
      if index = place then items[items.length - 1] else items[place] := by
  rcases List.eq_nil_or_concat items with rfl | ⟨front, last, rfl⟩
  · cases inside
  · simp [swapRemove_concat, List.getElem_set]

theorem swapRemove_perm (inside : index < items.length) :
    (swapRemove items index).Perm (items.eraseIdx index) := by
  rcases List.eq_nil_or_concat items with rfl | ⟨front, last, rfl⟩
  · cases inside
  rw [List.concat_eq_append] at inside ⊢
  rw [swapRemove_concat]
  rcases Nat.lt_or_ge index front.length with earlier | final
  · rw [List.set_append_left _ _ earlier, List.dropLast_concat,
      List.eraseIdx_append_of_lt_length earlier]
    exact (List.set_perm_cons_eraseIdx earlier last).trans
      (List.perm_append_singleton last _).symm
  · have place : index = front.length := by
      rw [List.length_append, List.length_singleton] at inside
      exact Nat.le_antisymm (Nat.le_of_lt_succ inside) final
    subst place
    rw [List.eraseIdx_append_of_length_le (Nat.le_refl _)]
    simp

theorem swapRemove_map {β : Type} (function : α → β) :
    (swapRemove items index).map function =
      swapRemove (items.map function) index := by
  rcases List.eq_nil_or_concat items with rfl | ⟨front, last, rfl⟩
  · rfl
  · rw [List.concat_eq_append, swapRemove_concat, List.map_append,
      List.map_singleton, swapRemove_concat, List.map_dropLast, List.map_set, List.map_append,
      List.map_singleton]

theorem swapRemove_nodup (inside : index < items.length)
    (distinct : items.Nodup) : (swapRemove items index).Nodup :=
  (swapRemove_perm inside).nodup_iff.mpr (distinct.eraseIdx index)

end SwapRemove
