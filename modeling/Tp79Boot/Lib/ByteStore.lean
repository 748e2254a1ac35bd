import Mathlib.Data.List.Range
import Mathlib.Logic.Function.Basic

/-!
# Stores addressed by cell

A store keeps one value at every address.  Stretches of it are loaded, saved,
filled and moved; what a change does not reach is loaded as before.
-/

namespace ByteStore

variable {α : Type}

abbrev Store (α : Type) := Nat → α

def load (store : Store α) (address count : Nat) : List α :=
  (List.range count).map fun index => store (address + index)

def save (store : Store α) (address : Nat) (data : List α) : Store α :=
  fun target =>
    if inside : address ≤ target ∧ target < address + data.length then
      have bound : target - address < data.length := by omega
      data[target - address]
    else store target

def fill (store : Store α) (address count : Nat) (value : α) : Store α :=
  fun target =>
    if address ≤ target ∧ target < address + count then value
    else store target

/-- The stretch at `source` is moved to `address`; the two may overlap. -/
def move (store : Store α) (address source count : Nat) : Store α :=
  fun target =>
    if address ≤ target ∧ target < address + count then
      store (source + (target - address))
    else store target

/-- Two stretches have no address in common. -/
def Apart (first firstCount second secondCount : Nat) : Prop :=
  first + firstCount ≤ second ∨ second + secondCount ≤ first

theorem slots_apart (start size : Nat) {first second : Nat}
    (different : first ≠ second) :
    Apart (start + first * size) size (start + second * size) size := by
  rcases Nat.lt_or_gt_of_ne different with less | greater
  · have after : (first + 1) * size ≤ second * size :=
      Nat.mul_le_mul_right size less
    rw [Nat.add_mul] at after
    exact .inl (by omega)
  · have after : (second + 1) * size ≤ first * size :=
      Nat.mul_le_mul_right size greater
    rw [Nat.add_mul] at after
    exact .inr (by omega)

theorem Apart.slot {other otherCount start size slots slot : Nat}
    (apart : Apart other otherCount start (size * slots)) (inside : slot < slots) :
    Apart other otherCount (start + slot * size) size := by
  have last : (slot + 1) * size ≤ slots * size :=
    Nat.mul_le_mul_right size inside
  rw [Nat.add_mul, Nat.mul_comm slots] at last
  unfold Apart at apart ⊢
  omega

theorem Apart.symm {first firstCount second secondCount : Nat}
    (apart : Apart first firstCount second secondCount) :
    Apart second secondCount first firstCount :=
  Or.symm apart

variable {store other : Store α} {address start count : Nat} {data : List α}

@[simp] theorem load_length : (load store address count).length = count := by
  simp [load]

theorem load_getElem {index : Nat}
    (bound : index < (load store address count).length) :
    (load store address count)[index] = store (address + index) := by
  simp [load]

theorem load_congr {second : Nat}
    (same : ∀ index, index < count →
      store (address + index) = other (second + index)) :
    load store address count = load other second count := by
  unfold load
  apply List.map_congr_left
  intro index member
  exact same index (List.mem_range.mp member)

theorem load_save : load (save store address data) address data.length =
    data := by
  apply List.ext_getElem
  · exact load_length
  · intro index _ bound
    have inside : address ≤ address + index ∧
        address + index < address + data.length :=
      ⟨Nat.le_add_right _ _, Nat.add_lt_add_left bound _⟩
    rw [load_getElem, save, dif_pos inside]
    simp only [Nat.add_sub_cancel_left]

theorem save_inside {index : Nat} (inside : index < data.length) :
    save store address data (address + index) = data[index] := by
  have bound : address ≤ address + index ∧
      address + index < address + data.length :=
    ⟨Nat.le_add_right _ _, Nat.add_lt_add_left inside _⟩
  rw [save, dif_pos bound]
  simp only [Nat.add_sub_cancel_left]

theorem save_behind {target : Nat} (behind : address + data.length ≤ target) :
    save store address data target = store target := by
  rw [save, dif_neg]
  intro inside
  exact absurd inside.2 (Nat.not_lt_of_le behind)

/-- A cell is saved behind what has been saved. -/
theorem save_concat (value : α) :
    save store address (data ++ [value]) =
      Function.update (save store address data) (address + data.length)
        value := by
  funext target
  by_cases here : target = address + data.length
  · subst here
    have inside : address ≤ address + data.length ∧
        address + data.length < address + (data ++ [value]).length := by
      rw [List.length_append, List.length_singleton]
      omega
    rw [Function.update_self, save, dif_pos inside]
    simp
  · rw [Function.update_of_ne here, save, save]
    by_cases inside : address ≤ target ∧ target < address + data.length
    · have within : address ≤ target ∧
          target < address + (data ++ [value]).length := by
        rw [List.length_append]
        omega
      have bound : target - address < data.length := by omega
      rw [dif_pos within, dif_pos inside]
      exact List.getElem_append_left bound
    · have outside : ¬(address ≤ target ∧
          target < address + (data ++ [value]).length) := by
        rw [List.length_append, List.length_singleton]
        omega
      rw [dif_neg outside, dif_neg inside]

/-- What is saved behind other data is saved together with it. -/
theorem save_append (further : List α) :
    save (save store address data) (address + data.length) further =
      save store address (data ++ further) := by
  have length : (data ++ further).length = data.length + further.length :=
    List.length_append
  funext target
  by_cases behind : address + data.length ≤ target
  · obtain ⟨offset, rfl⟩ := Nat.exists_eq_add_of_le behind
    by_cases inside : offset < further.length
    · have within : data.length + offset < (data ++ further).length := by omega
      rw [save_inside inside, Nat.add_assoc, save_inside within,
        List.getElem_append_right (Nat.le_add_right _ _)]
      simp only [Nat.add_sub_cancel_left]
    · rw [save_behind (by omega), save_behind (by omega), save_behind (by omega)]
  · have before : ¬(address + data.length ≤ target ∧
        target < address + data.length + further.length) := by omega
    rw [save, dif_neg before]
    by_cases inside : address ≤ target
    · obtain ⟨offset, rfl⟩ := Nat.exists_eq_add_of_le inside
      have first : offset < data.length := by omega
      have within : offset < (data ++ further).length := by omega
      rw [save_inside first, save_inside within, List.getElem_append_left first]
    · have outside : ¬(address ≤ target ∧ target < address + data.length) := by
        omega
      have beyond : ¬(address ≤ target ∧
          target < address + (data ++ further).length) := by omega
      rw [save, save, dif_neg outside, dif_neg beyond]

/-- A cell of what has been saved is changed. -/
theorem save_set {place : Nat} {value : α} (inside : place < data.length) :
    Function.update (save store address data) (address + place) value =
      save store address (data.set place value) := by
  have length : (data.set place value).length = data.length :=
    List.length_set
  funext target
  by_cases within : address ≤ target ∧ target < address + data.length
  · obtain ⟨offset, rfl⟩ := Nat.exists_eq_add_of_le within.1
    have bound : offset < data.length := Nat.lt_of_add_lt_add_left within.2
    have later : offset < (data.set place value).length := length ▸ bound
    rw [save_inside later, List.getElem_set]
    by_cases here : place = offset
    · subst here
      rw [Function.update_self, if_pos rfl]
    · have other : address + offset ≠ address + place := by omega
      rw [Function.update_of_ne other, save_inside bound, if_neg here]
  · have other : target ≠ address + place := by omega
    have outside : ¬(address ≤ target ∧
        target < address + (data.set place value).length) := length ▸ within
    rw [Function.update_of_ne other, save, save, dif_neg within,
      dif_neg outside]

theorem save_nil : save store address [] = store := by
  funext target
  have outside : ¬(address ≤ target ∧ target < address + 0) := by omega
  exact dif_neg outside

theorem load_save_apart (apart : Apart start count address data.length) :
    load (save store address data) start count = load store start count := by
  apply load_congr
  intro index bound
  have outside : ¬(address ≤ start + index ∧
      start + index < address + data.length) := by
    unfold Apart at apart
    omega
  rw [save, dif_neg outside]

theorem load_move_apart {source size : Nat}
    (apart : Apart start count address size) :
    load (move store address source size) start count =
      load store start count := by
  apply load_congr
  intro index bound
  have outside : ¬(address ≤ start + index ∧
      start + index < address + size) := by
    unfold Apart at apart
    omega
  rw [move, if_neg outside]

theorem load_move {source size place : Nat} (inside : place + count ≤ size) :
    load (move store address source size) (address + place) count =
      load store (source + place) count := by
  apply load_congr
  intro index bound
  have within : address ≤ address + place + index ∧
      address + place + index < address + size := by omega
  have position : source + (address + place + index - address) =
      source + place + index := by omega
  rw [move, if_pos within, position]

end ByteStore
