import Tp79Boot.Lib.WhileLoop
import Tp79Boot.Display.UnicodeTable

/-!
# Names on the display

`strHEX_uincode_to_gb2312` of `my_string.c` turns a name from UTF-16 into
GB2312.  A unit with a high byte becomes two bytes and any other unit one, so
the text is never longer than the name, and can be just as long.
-/

namespace Tp79Boot

open ByteStore WhileLoop

/-- The two counters and the memory behind `user_id_hex_gb2312`. -/
structure NameLoop where
  j : UInt8
  k : UInt8
  buffer : Store UInt8

section

variable (rom : Nat → UInt8) (userIdHexUnicode : List UInt8)

/-- `uin_dat16`, looked up in the ROM. -/
def nameLookup (j : Nat) : UInt16 :=
  unicodeToGb2312 rom
    ((byteAt userIdHexUnicode j).toUInt16 +
      ((byteAt userIdHexUnicode (j + 1)).toUInt16 <<< 8))

def nameTurn (lenth : UInt8) (state : NameLoop) : Turn NameLoop :=
  let place := state.j.toNat
  if state.j < lenth then
    let written : UInt8 × Store UInt8 :=
      if byteAt userIdHexUnicode (place + 1) ≠ 0x00 then
        -- `memcpy` of a halfword takes its low byte first.
        let gb2312Dat16 := nameLookup rom userIdHexUnicode place
        (state.k + 2, save state.buffer state.k.toNat
          [gb2312Dat16.toUInt8, (gb2312Dat16 >>> 8).toUInt8])
      else
        (state.k + 1, save state.buffer state.k.toNat
          [byteAt userIdHexUnicode place])
    if lenth ≤ written.1 then
      .done { state with k := written.1, buffer := written.2 }
    else .again { j := state.j + 2, k := written.1, buffer := written.2 }
  else .done state

/-- `strHEX_uincode_to_gb2312`; the counter has no more values than there are
turns. -/
def strHexUincodeToGb2312 (lenth : UInt8) (userIdHexGb2312 : Store UInt8) :
    Option (Store UInt8) :=
  (loop (nameTurn rom userIdHexUnicode lenth) 0x100
    { j := 0, k := 0, buffer := userIdHexGb2312 }).map NameLoop.buffer

/-- The bytes a unit becomes. -/
def nameUnit (j : Nat) : List UInt8 :=
  if byteAt userIdHexUnicode (j + 1) ≠ 0x00 then
    let gb2312Dat16 := nameLookup rom userIdHexUnicode j
    [gb2312Dat16.toUInt8, (gb2312Dat16 >>> 8).toUInt8]
  else [byteAt userIdHexUnicode j]

/-- The bytes of the first units. -/
def nameText (units : Nat) : List UInt8 :=
  (List.range units).flatMap fun unit => nameUnit rom userIdHexUnicode (2 * unit)

end

section

variable {rom : Nat → UInt8} {name : List UInt8}

theorem nameText_succ (units : Nat) :
    nameText rom name (units + 1) =
      nameText rom name units ++ nameUnit rom name (2 * units) := by
  rw [nameText, List.range_succ, List.flatMap_append, List.flatMap_singleton]
  rfl

theorem nameUnit_length (j : Nat) :
    (nameUnit rom name j).length = if byteAt name (j + 1) ≠ 0 then 2 else 1 := by
  unfold nameUnit
  split
  · rfl
  · rfl

theorem nameUnit_length_le (j : Nat) : (nameUnit rom name j).length ≤ 2 := by
  rw [nameUnit_length]
  split
  · decide
  · decide

theorem nameText_length_le (units : Nat) :
    (nameText rom name units).length ≤ 2 * units := by
  induction units with
  | zero => exact Nat.le_refl 0
  | succ units induction =>
      have unit := @nameUnit_length_le rom name (2 * units)
      rw [nameText_succ, List.length_append]
      omega

variable {lenth : UInt8} {units : Nat}

theorem nameTurn_eq {j k : UInt8} (buffer : Store UInt8) (inside : j < lenth) :
    nameTurn rom name lenth { j := j, k := k, buffer := buffer } =
      let unit := nameUnit rom name j.toNat
      let next := k + UInt8.ofNat unit.length
      if lenth ≤ next then
        .done { j := j, k := next, buffer := save buffer k.toNat unit }
      else
        .again
          { j := j + 2, k := next, buffer := save buffer k.toNat unit } := by
  unfold nameTurn nameUnit
  rw [if_pos inside]
  split
  · rfl
  · rfl

/-- The state when some units have been converted. -/
def nameState (rom : Nat → UInt8) (name : List UInt8) (before : Store UInt8)
    (count : Nat) : NameLoop :=
  { j := UInt8.ofNat (2 * count)
    k := UInt8.ofNat (nameText rom name count).length
    buffer := save before 0 (nameText rom name count) }

theorem counter_toNat (even : lenth.toNat = 2 * units) {count : Nat}
    (inside : count ≤ 2 * units) : (UInt8.ofNat count).toNat = count := by
  have range := lenth.toNat_lt
  have small : count < 2 ^ 8 := by omega
  exact UInt8.toNat_ofNat_of_lt' small

/-- A turn converts the next unit; it is the last one where the text is then
as long as the name. -/
theorem nameTurn_state (even : lenth.toNat = 2 * units) (before : Store UInt8)
    {count : Nat} (inside : count < units) :
    nameTurn rom name lenth (nameState rom name before count) =
      if 2 * units ≤ (nameText rom name (count + 1)).length then
        .done { nameState rom name before (count + 1) with
          j := UInt8.ofNat (2 * count) }
      else .again (nameState rom name before (count + 1)) := by
  have length := @nameText_length_le rom name count
  have nextLength := @nameText_length_le rom name (count + 1)
  have here := counter_toNat even (show 2 * count ≤ 2 * units by omega)
  have place := counter_toNat even
    (show (nameText rom name count).length ≤ 2 * units by omega)
  have within : UInt8.ofNat (2 * count) < lenth := by
    rw [UInt8.lt_iff_toNat_lt, here, even]
    omega
  have counted : UInt8.ofNat (nameText rom name count).length +
      UInt8.ofNat (nameUnit rom name (2 * count)).length =
        UInt8.ofNat (nameText rom name (count + 1)).length := by
    rw [nameText_succ, List.length_append, UInt8.ofNat_add]
  have further : UInt8.ofNat (2 * count) + 2 = UInt8.ofNat (2 * (count + 1)) := by
    rw [Nat.mul_succ, UInt8.ofNat_add]
    rfl
  have written : save (save before 0 (nameText rom name count))
      (nameText rom name count).length (nameUnit rom name (2 * count)) =
        save before 0 (nameText rom name (count + 1)) := by
    have together := @save_append _ before 0 (nameText rom name count)
      (nameUnit rom name (2 * count))
    rwa [Nat.zero_add, ← nameText_succ] at together
  have full : lenth ≤ UInt8.ofNat (nameText rom name (count + 1)).length ↔
      2 * units ≤ (nameText rom name (count + 1)).length := by
    rw [UInt8.le_iff_toNat_le, even, counter_toNat even (by omega)]
  rw [nameState, nameTurn_eq _ within]
  simp only [here, place, counted, further, written, full]
  rfl

/-- The loop ends with the text of all units, whether it leaves by its test or
by the `return`. -/
theorem nameLoop_from (even : lenth.toNat = 2 * units) (before : Store UInt8)
    {count left turns : Nat} (total : count + left = units)
    (enough : left < turns) :
    ∃ final, loop (nameTurn rom name lenth) turns
        (nameState rom name before count) = some final ∧
      final.buffer = save before 0 (nameText rom name units) := by
  obtain ⟨turns, rfl⟩ := Nat.exists_eq_add_of_lt enough
  induction left generalizing count turns with
  | zero =>
      rw [Nat.add_zero] at total
      subst total
      have stops : nameTurn rom name lenth (nameState rom name before count) =
          .done (nameState rom name before count) := by
        apply if_neg
        rw [UInt8.lt_iff_toNat_lt, even]
        exact Nat.not_lt_of_le
          (Nat.le_of_eq (counter_toNat even (Nat.le_refl _)).symm)
      exact ⟨_, loop_done stops _, rfl⟩
  | succ left induction =>
      have turn := @nameTurn_state rom name _ _ even before count
        (by omega)
      by_cases full : 2 * units ≤ (nameText rom name (count + 1)).length
      · have length := @nameText_length_le rom name (count + 1)
        have last : count + 1 = units := by omega
        rw [if_pos full] at turn
        refine ⟨_, loop_done turn _, ?_⟩
        rw [← last]
        rfl
      · rw [if_neg full] at turn
        obtain ⟨final, ended, buffer⟩ :=
          @induction (count + 1) (by omega) turns (by omega)
        rw [Nat.add_right_comm] at ended
        exact ⟨final, (loop_again turn _).trans ended, buffer⟩

theorem strHexUincodeToGb2312_eq (even : lenth.toNat = 2 * units)
    (before : Store UInt8) :
    strHexUincodeToGb2312 rom name lenth before =
      some (save before 0 (nameText rom name units)) := by
  have range := lenth.toNat_lt
  obtain ⟨final, ended, buffer⟩ := @nameLoop_from rom name _ _ even before 0
    units 0x100 (Nat.zero_add units) (by omega)
  have start : nameState rom name before 0 =
      { j := 0, k := 0, buffer := before } := by
    rw [nameState]
    exact congrArg (NameLoop.mk 0 0) save_nil
  rw [start] at ended
  rw [strHexUincodeToGb2312, ended, ← buffer]
  rfl

/-- The unit becomes a single byte, or there is a zero byte among the two. -/
def LeavesRoom (rom : Nat → UInt8) (name : List UInt8) (unit : Nat) : Prop :=
  byteAt name (2 * unit + 1) = 0 ∨ (nameLookup rom name (2 * unit)).toUInt8 = 0 ∨
    (nameLookup rom name (2 * unit) >>> 8).toUInt8 = 0

instance (rom : Nat → UInt8) (name : List UInt8) (unit : Nat) :
    Decidable (LeavesRoom rom name unit) :=
  inferInstanceAs (Decidable (_ ∨ _))

theorem leavesRoom_iff (unit : Nat) :
    LeavesRoom rom name unit ↔
      (nameUnit rom name (2 * unit)).length < 2 ∨
        0 ∈ nameUnit rom name (2 * unit) := by
  unfold LeavesRoom nameUnit
  by_cases narrow : byteAt name (2 * unit + 1) = 0
  · rw [if_neg (not_not.mpr narrow)]
    exact iff_of_true (.inl narrow) (.inl (Nat.lt_succ_self 1))
  · rw [if_pos narrow, or_iff_right narrow, List.mem_cons, List.mem_singleton]
    constructor
    · intro zero
      exact .inr (zero.imp Eq.symm Eq.symm)
    · intro room
      rcases room with short | zero
      · exact absurd short (Nat.lt_irrefl 2)
      · exact zero.imp Eq.symm Eq.symm

/-- A text shorter than its name, or with a zero byte, comes from a unit that
leaves room. -/
theorem nameText_room_iff (units : Nat) :
    ((nameText rom name units).length < 2 * units ∨ 0 ∈ nameText rom name units) ↔
      ∃ unit, unit < units ∧ LeavesRoom rom name unit := by
  induction units with
  | zero =>
      apply iff_of_false
      · intro room
        rcases room with short | zero
        · exact Nat.not_lt_zero _ short
        · exact absurd zero List.not_mem_nil
      · intro room
        obtain ⟨unit, inside, _⟩ := room
        exact Nat.not_lt_zero _ inside
  | succ units induction =>
      have length := @nameText_length_le rom name units
      have unitLength := @nameUnit_length_le rom name (2 * units)
      have split : (∃ unit, unit < units + 1 ∧ LeavesRoom rom name unit) ↔
          (∃ unit, unit < units ∧ LeavesRoom rom name unit) ∨
            LeavesRoom rom name units :=
        Nat.exists_lt_succ_right
      have shorter : (nameText rom name units).length +
            (nameUnit rom name (2 * units)).length < 2 * (units + 1) ↔
          (nameText rom name units).length < 2 * units ∨
            (nameUnit rom name (2 * units)).length < 2 := by
        omega
      rw [split, ← induction, leavesRoom_iff, nameText_succ, List.length_append,
        List.mem_append, shorter]
      exact or_or_or_comm

/-- In a cleared buffer of the length of the name, a zero is left exactly when
some unit leaves room. -/
theorem save_terminated_iff {before : Store UInt8}
    (cleared : ∀ place, place < 2 * units → before place = 0) :
    (∃ place, place < 2 * units ∧
        save before 0 (nameText rom name units) place = 0) ↔
      ∃ unit, unit < units ∧ LeavesRoom rom name unit := by
  have length := @nameText_length_le rom name units
  rw [← nameText_room_iff]
  constructor
  · intro terminated
    obtain ⟨place, inside, zero⟩ := terminated
    rcases Nat.lt_or_ge place (nameText rom name units).length with
      within | behind
    · have stored := @save_inside _ before 0 _ _ within
      rw [Nat.zero_add, zero] at stored
      exact .inr (stored ▸ List.getElem_mem within)
    · exact .inl (Nat.lt_of_le_of_lt behind inside)
  · intro room
    rcases room with short | zero
    · refine ⟨_, short, ?_⟩
      rw [save_behind (Nat.le_of_eq (Nat.zero_add _))]
      exact cleared _ short
    · obtain ⟨place, within, stored⟩ := List.getElem_of_mem zero
      refine ⟨place, Nat.lt_of_lt_of_le within length, ?_⟩
      have saved := @save_inside _ before 0 _ _ within
      rw [Nat.zero_add] at saved
      exact saved.trans stored

end

/-- Nothing is written behind the 26 bytes of `disp_buf`, and one of them is
zero. -/
structure NameContained (before after : Store UInt8) : Prop where
  inside : ∀ place, 26 ≤ place → after place = before place
  terminated : ∃ place, place < 26 ∧ after place = 0

theorem NameContained.strlen_lt {before after : Store UInt8}
    (contained : NameContained before after) :
    strlen (load after 0 26) < 26 := by
  obtain ⟨place, inside, zero⟩ := contained.terminated
  have bound : place < (load after 0 26).length := by
    rw [load_length]
    exact inside
  have byte : byteAt (load after 0 26) place = 0 := by
    rw [byteAt_of_lt bound, load_getElem, Nat.zero_add, zero]
  exact Nat.lt_of_le_of_lt (strlen_le_of_zero byte) inside

/-- A name of 26 bytes stays inside the cleared buffer and keeps a zero in it
exactly when one of its units leaves room. -/
theorem groupName_contained_iff (rom : Nat → UInt8) (name : Vector UInt8 26)
    {dispBuf : Store UInt8} (cleared : ∀ place, place < 26 → dispBuf place = 0) :
    (∃ after, strHexUincodeToGb2312 rom name.toList 26 dispBuf = some after ∧
        NameContained dispBuf after) ↔
      ∃ unit, unit < 13 ∧ LeavesRoom rom name.toList unit := by
  have even : (26 : UInt8).toNat = 2 * 13 := rfl
  have converted := @strHexUincodeToGb2312_eq rom name.toList 26 13 even dispBuf
  rw [← @save_terminated_iff rom name.toList 13 dispBuf cleared]
  constructor
  · intro contained
    obtain ⟨after, ended, contained⟩ := contained
    cases converted.symm.trans ended
    exact contained.terminated
  · intro terminated
    refine ⟨_, converted, ?_, terminated⟩
    intro place behind
    have length := @nameText_length_le rom name.toList 13
    apply save_behind
    omega

/-- A name of Latin letters. -/
theorem groupName_contained_latin :
    ∃ after, strHexUincodeToGb2312 (fun _ => 0xB0)
        (Vector.ofFn fun place : Fin 26 =>
          if place.val % 2 = 0 then 0x41 else 0).toList 26 (fun _ => 0) =
        some after ∧
      NameContained (fun _ => 0) after :=
  (groupName_contained_iff (fun _ => 0xB0) _ fun _ _ => rfl).mpr
    ⟨0, by decide, .inl (by decide)⟩

/-- Thirteen Chinese characters fill the buffer. -/
theorem groupName_unterminated :
    ¬∃ after, strHexUincodeToGb2312 (fun _ => 0xB0)
        (Vector.ofFn fun place : Fin 26 =>
          if place.val % 2 = 0 then 0 else 0x4E).toList 26 (fun _ => 0) =
        some after ∧
      NameContained (fun _ => 0) after := by
  have even : (26 : UInt8).toNat = 2 * 13 := rfl
  have wide : ∀ unit : Fin 13, ¬LeavesRoom (fun _ => 0xB0)
      (Vector.ofFn fun place : Fin 26 =>
        if place.val % 2 = 0 then (0 : UInt8) else 0x4E).toList unit := by
    decide
  intro contained
  obtain ⟨after, ended, _, terminated⟩ := contained
  rw [strHexUincodeToGb2312_eq even] at ended
  cases ended
  obtain ⟨unit, inside, room⟩ :=
    (@save_terminated_iff _ _ 13 (fun _ => 0) fun _ _ => rfl).mp terminated
  exact wide ⟨unit, inside⟩ room

end Tp79Boot
