import Mathlib.Tactic.Ring
import Tp79Boot.Flash

/-!
# What the flash driver does

Each function of the driver as the list of operations it runs, and from that
the contents it leaves.
-/

namespace Tp79Boot

open NorMemory

/-- Where `Flash_Read` finds byte `index` of its result: the bytes of each
word come back in reverse order. -/
def mirrored (index : Nat) : Nat := 4 * (index / 4) + (3 - index % 4)

theorem mirrored_mirrored (index : Nat) : mirrored (mirrored index) = index := by
  unfold mirrored
  omega

theorem mirrored_lt {index size : Nat} (whole : 4 ∣ size)
    (bound : index < size) : mirrored index < size := by
  unfold mirrored
  omega

theorem splitWord_readWord (mem : Mem) (address : Nat) :
    splitWord (readWord mem address) =
      [mem (address + 3), mem (address + 2), mem (address + 1),
        mem address] := by
  have stored := wordBytes_wordOfBytes [mem address, mem (address + 1),
    mem (address + 2), mem (address + 3)]
  have reversed : splitWord (readWord mem address) =
      (wordBytes (readWord mem address)).reverse := rfl
  rw [reversed, readWord, stored]
  rfl

private theorem flashReadLoop_length (mem : Mem) (turns address left : Nat)
    (enough : left / 4 < turns) :
    (flashReadLoop mem turns address left).length = left := by
  induction turns generalizing address left with
  | zero => omega
  | succ turns induction =>
      rw [flashReadLoop]
      split
      next short =>
        rw [splitWord_readWord]
        simp
        omega
      next more =>
        have rest := induction (address + 4) (left - 4) (by omega)
        rw [List.length_append, rest, splitWord_readWord]
        simp
        omega

private theorem flashReadLoop_byteAt (mem : Mem) (turns address left : Nat)
    (enough : left / 4 < turns) {index : Nat} (bound : index < left) :
    byteAt (flashReadLoop mem turns address left) index =
      mem (address + mirrored index) := by
  induction turns generalizing address left index with
  | zero => omega
  | succ turns induction =>
      rw [flashReadLoop, splitWord_readWord]
      split
      next short =>
        obtain rfl | rfl | rfl : index = 0 ∨ index = 1 ∨ index = 2 := by omega
        all_goals
          rw [byteAt_of_lt (by simp; omega), List.getElem_take]
          rfl
      next more =>
        rcases Nat.lt_or_ge index 4 with first | later
        · rw [byteAt_append_left (by simpa using first)]
          obtain rfl | rfl | rfl | rfl :
              index = 0 ∨ index = 1 ∨ index = 2 ∨ index = 3 := by omega
          all_goals rfl
        · obtain ⟨rest, rfl⟩ := Nat.exists_eq_add_of_le later
          have tail := induction (address + 4) (left - 4) (by omega)
            (show rest < left - 4 by omega)
          have position : address + 4 + mirrored rest =
              address + mirrored (4 + rest) := by
            unfold mirrored
            omega
          have shifted := byteAt_append_right [mem (address + 3),
            mem (address + 2), mem (address + 1), mem address]
            (flashReadLoop mem turns (address + 4) (left - 4)) rest
          exact shifted.trans (tail.trans (congrArg mem position))

@[simp] theorem flashRead_length (flash : Flash) (startAddr size : Nat) :
    (flashRead flash startAddr size).length = size :=
  flashReadLoop_length _ _ _ _ (Nat.lt_succ_self _)

theorem flashRead_byteAt (flash : Flash) (startAddr : Nat) {size index : Nat}
    (bound : index < size) :
    byteAt (flashRead flash startAddr size) index =
      flash.mem (startAddr + mirrored index) :=
  flashReadLoop_byteAt _ _ _ _ (Nat.lt_succ_self _) bound

@[simp] theorem flashReadForDownload_length (flash : Flash)
    (startAddr size : Nat) :
    (flashReadForDownload flash startAddr size).length = size := by
  simp [flashReadForDownload]

theorem flashReadForDownload_byteAt (flash : Flash) (startAddr : Nat)
    {size index : Nat} (bound : index < size) :
    byteAt (flashReadForDownload flash startAddr size) index =
      flash.mem (startAddr + index) := by
  rw [byteAt_of_lt (by simpa using bound)]
  simp [flashReadForDownload]

def eraseOps (startAddr pages : Nat) : List Op :=
  (List.range pages).map fun i => Op.erase (startAddr + i * 0x800)

private theorem flashEraseLoop_eq (startAddr size : Nat) (turns first pages : Nat)
    (flash : Flash) (total : first + pages = size / 0x800)
    (narrow : size / 0x800 < 256) (enough : pages < turns) :
    flashEraseLoop startAddr size turns (UInt8.ofNat first) flash =
      some (flash.execAll stm32f103ve
        ((List.range' first pages).map fun i =>
          Op.erase (startAddr + i * 0x800))) := by
  induction pages generalizing turns first flash with
  | zero =>
      obtain ⟨turns, rfl⟩ := Nat.exists_eq_add_of_lt enough
      have counter : (UInt8.ofNat first).toNat = first := by
        simp
        omega
      rw [flashEraseLoop, counter, if_neg (by omega)]
      rfl
  | succ pages induction =>
      obtain ⟨turns, rfl⟩ : ∃ before, turns = before + 1 :=
        ⟨turns - 1, by omega⟩
      have counter : (UInt8.ofNat first).toNat = first := by
        simp
        omega
      have next : UInt8.ofNat first + 1 = UInt8.ofNat (first + 1) := by
        simp
      rw [flashEraseLoop, counter, if_pos (by omega), next,
        induction turns (first + 1) _ (by omega) (by omega), List.range'_succ]
      rfl

theorem flashErase_eq (flash : Flash) (startAddr : Nat) {size : Nat}
    (narrow : size / 0x800 < 256) :
    flashErase flash startAddr size =
      some (flash.execAll stm32f103ve (eraseOps startAddr (size / 0x800))) := by
  have loop := flashEraseLoop_eq startAddr size 256 0 (size / 0x800) flash
    (Nat.zero_add _) narrow narrow
  rw [← List.range_eq_range'] at loop
  exact loop

theorem flashErase_isSome (flash : Flash) (startAddr : Nat) {size : Nat}
    (narrow : size / 0x800 < 256) :
    (flashErase flash startAddr size).isSome := by
  rw [flashErase_eq flash startAddr narrow]
  rfl

theorem onePage_turns : 2 * 1024 / 0x800 < 256 := by
  decide

/-- Erasing whole pages blanks exactly the range they cover. -/
theorem replay_eraseOps {startAddr pages : Nat} (aligned : 0x800 ∣ startAddr)
    (mem : Mem) (target : Nat) :
    replay stm32f103ve (eraseOps startAddr pages) mem target =
      if stm32f103ve.Contains target ∧
          startAddr ≤ target ∧ target < startAddr + pages * 0x800
      then 0xFF else mem target := by
  have listed : eraseOps startAddr pages =
      ((List.range pages).map fun i => startAddr + i * 0x800).map Op.erase := by
    simp [eraseOps]
  have covered : (∃ address ∈ (List.range pages).map fun i =>
        startAddr + i * 0x800, target / 0x800 = address / 0x800) ↔
      startAddr ≤ target ∧ target < startAddr + pages * 0x800 := by
    constructor
    · rintro ⟨address, member, same⟩
      obtain ⟨i, bound, rfl⟩ := List.mem_map.mp member
      have below := List.mem_range.mp bound
      omega
    · rintro ⟨above, below⟩
      refine ⟨startAddr + (target - startAddr) / 0x800 * 0x800, ?_, ?_⟩
      · refine List.mem_map.mpr ⟨(target - startAddr) / 0x800, ?_, rfl⟩
        exact List.mem_range.mpr (by omega)
      · omega
  have unit : stm32f103ve.page = 0x800 := rfl
  rw [listed, replay_erases]
  simp only [unit, covered]

def writeOps (startAddr : Nat) (data : List UInt8) (words : Nat) : List Op :=
  (List.range words).map fun turn =>
    Op.program (startAddr + 4 * turn) (bytesAt data (4 * turn) 4)

theorem bytesAt_drop (memory : List UInt8) (skip offset count : Nat) :
    bytesAt (memory.drop skip) offset count =
      bytesAt memory (skip + offset) count := by
  simp [bytesAt, byteAt, Nat.add_assoc]

theorem wordBytes_wordOfBytes_drop (data : List UInt8) (skip : Nat) :
    wordBytes (wordOfBytes (data.drop skip)) = bytesAt data skip 4 := by
  rw [wordBytes_wordOfBytes, bytesAt_drop, Nat.add_zero]

theorem flashWrite_eq (flash : Flash) (startAddr : Nat) (data : List UInt8)
    (size : Nat) :
    flashWrite flash startAddr data size =
      flash.execAll stm32f103ve (writeOps startAddr data ((size + 3) / 4)) := by
  simp only [flashWrite, flashProgramWord, wordBytes_wordOfBytes_drop,
    Device.execAll, writeOps, List.foldl_map]

/-- `Flash_Write` clears bits of its range and touches nothing else. -/
theorem flashWrite_mem (flash : Flash) (startAddr : Nat) (data : List UInt8)
    {size : Nat} (whole : 4 ∣ size) (target : Nat) :
    (flashWrite flash startAddr data size).mem target =
      if stm32f103ve.Contains target ∧
          startAddr ≤ target ∧ target < startAddr + size
      then flash.mem target &&& byteAt data (target - startAddr)
      else flash.mem target := by
  have total : 4 * ((size + 3) / 4) = size := by omega
  rw [flashWrite_eq, Device.execAll_mem, writeOps,
    replay_blocks startAddr 4 (by omega) _ (fun _ => bytesAt_length _ _ _),
    total]
  split
  next inside =>
    have position : 4 * ((target - startAddr) / 4) +
        (target - startAddr) % 4 = target - startAddr := by omega
    have entry : (bytesAt data (4 * ((target - startAddr) / 4)) 4).getD
        ((target - startAddr) % 4) 0 = byteAt data (target - startAddr) := by
      rw [List.getD_eq_getElem _ _ (by simp; omega), bytesAt_getElem, position]
    rw [entry]
  next => rfl

end Tp79Boot
