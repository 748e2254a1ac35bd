import Mathlib.Data.List.Range
import Tp79Boot.Lib.NorMemory
import Tp79Boot.CString

/-!
# The flash driver

`flash.c` on top of `FLASH_ErasePage` and `FLASH_ProgramWord`.  The chip has
512 KB of flash in pages of 2 KB; an address outside it is not flash, and an
operation sent there is recorded but changes nothing.  Addresses are naturals:
no caller comes near the end of the 32-bit address space.
-/

namespace Tp79Boot

open NorMemory

abbrev Flash := NorMemory.Device

/-- The flash of the STM32F103VE. -/
def stm32f103ve : Geometry :=
  { base := 0x08000000
    size := 0x80000
    page := 0x800 }

def flashAddrReserve : Nat := 0x08000000 + 1024 * 500
def flashAddrBootFlag : Nat := flashAddrReserve + 2048
def flashAddrUserStart : Nat := flashAddrBootFlag + 2048

/-- A 32-bit variable as its four bytes, low byte first. -/
def wordBytes (word : UInt32) : List UInt8 :=
  [word.toUInt8, (word >>> 8).toUInt8, (word >>> 16).toUInt8,
    (word >>> 24).toUInt8]

/-- A 32-bit variable filled byte by byte on the little-endian core. -/
def wordOfBytes (bytes : List UInt8) : UInt32 :=
  (byteAt bytes 0).toUInt32 + ((byteAt bytes 1).toUInt32 <<< 8) +
    ((byteAt bytes 2).toUInt32 <<< 16) + ((byteAt bytes 3).toUInt32 <<< 24)

@[simp] theorem wordBytes_length (word : UInt32) :
    (wordBytes word).length = 4 := rfl

private theorem wordOfBytes_toNat (bytes : List UInt8) :
    (wordOfBytes bytes).toNat =
      (byteAt bytes 0).toNat + 256 * (byteAt bytes 1).toNat +
        65536 * (byteAt bytes 2).toNat + 16777216 * (byteAt bytes 3).toNat := by
  have first := (byteAt bytes 0).toNat_lt
  have second := (byteAt bytes 1).toNat_lt
  have third := (byteAt bytes 2).toNat_lt
  have fourth := (byteAt bytes 3).toNat_lt
  simp [wordOfBytes, Nat.shiftLeft_eq]
  omega

/-- A word filled from four bytes is stored as those bytes. -/
theorem wordBytes_wordOfBytes (bytes : List UInt8) :
    wordBytes (wordOfBytes bytes) = bytesAt bytes 0 4 := by
  have first := (byteAt bytes 0).toNat_lt
  have second := (byteAt bytes 1).toNat_lt
  have third := (byteAt bytes 2).toNat_lt
  have fourth := (byteAt bytes 3).toNat_lt
  have value := wordOfBytes_toNat bytes
  have expanded : bytesAt bytes 0 4 =
      [byteAt bytes 0, byteAt bytes 1, byteAt bytes 2, byteAt bytes 3] := rfl
  rw [expanded, wordBytes]
  refine List.cons_eq_cons.mpr ⟨?_, List.cons_eq_cons.mpr ⟨?_,
    List.cons_eq_cons.mpr ⟨?_, List.cons_eq_cons.mpr ⟨?_, rfl⟩⟩⟩⟩ <;>
  · apply UInt8.toNat_inj.mp
    simp [value, Nat.shiftRight_eq_div_pow]
    omega

theorem wordOfBytes_wordBytes (word : UInt32) :
    wordOfBytes (wordBytes word) = word := by
  have range := word.toNat_lt
  apply UInt32.toNat_inj.mp
  rw [wordOfBytes_toNat]
  simp [byteAt, wordBytes, Nat.shiftRight_eq_div_pow]
  omega

def flashErasePage (flash : Flash) (pageAddress : Nat) : Flash :=
  flash.exec stm32f103ve (.erase pageAddress)

def flashProgramWord (flash : Flash) (address : Nat) (data : UInt32) : Flash :=
  flash.exec stm32f103ve (.program address (wordBytes data))

/-- `*(uint32_t *)address`. -/
def readWord (mem : Mem) (address : Nat) : UInt32 :=
  wordOfBytes [mem address, mem (address + 1), mem (address + 2),
    mem (address + 3)]

/-- The bytes `Data32 >> (8*(3-i))` for `i = 0..3`. -/
def splitWord (word : UInt32) : List UInt8 :=
  [(word >>> 24).toUInt8, (word >>> 16).toUInt8, (word >>> 8).toUInt8,
    word.toUInt8]

/-- The reading loop of `Flash_Read`: one word a turn, until the inner loop
meets the requested size. -/
def flashReadLoop (mem : Mem) : Nat → Nat → Nat → List UInt8
  | 0, _, _ => []
  | turns + 1, address, left =>
      let data32 := readWord mem address
      if left < 4 then (splitWord data32).take left
      else splitWord data32 ++ flashReadLoop mem turns (address + 4) (left - 4)

def flashRead (flash : Flash) (startAddr size : Nat) : List UInt8 :=
  flashReadLoop flash.mem (size / 4 + 1) startAddr size

def flashReadForDownload (flash : Flash) (startAddr size : Nat) : List UInt8 :=
  (List.range size).map fun index => flash.mem (startAddr + index)

/-- The loop of `Flash_Erase`.  Its counter is eight bits wide; when it has
come round to zero without reaching the bound it never will. -/
def flashEraseLoop (startAddr size : Nat) :
    Nat → UInt8 → Flash → Option Flash
  | 0, _, _ => none
  | turns + 1, i, flash =>
      if i.toNat < size / 0x800 then
        flashEraseLoop startAddr size turns (i + 1)
          (flashErasePage flash (startAddr + i.toNat * 0x800))
      else some flash

def flashErase (flash : Flash) (startAddr size : Nat) : Option Flash :=
  flashEraseLoop startAddr size 256 0 flash

def flashWrite (flash : Flash) (startAddr : Nat) (data : List UInt8)
    (size : Nat) : Flash :=
  (List.range ((size + 3) / 4)).foldl (fun current turn =>
    flashProgramWord current (startAddr + 4 * turn)
      (wordOfBytes (data.drop (4 * turn)))) flash

/-- Save the page that holds `startAddr` to the reserve page. -/
def flashUpdataSave (flash : Flash) (startAddr : Nat) : Flash :=
  (List.range 0x200).foldl (fun current i =>
    flashProgramWord current (flashAddrReserve + i * 4)
      (wordOfBytes
        (flashRead current (startAddr / 0x800 * 0x800 + i * 4) 4))) flash

/-- Fill the erased page again, from `data` inside the range and from the
reserve page elsewhere.  The counter `j` runs through `data`. -/
def flashUpdataFill (flash : Flash) (startAddr : Nat) (data : List UInt8)
    (size : Nat) : Flash × Nat :=
  (List.range 0x200).foldl (fun (current, j) turn =>
    let i := 4 * turn
    if startAddr % 0x800 ≤ i ∧ i < startAddr % 0x800 + size then
      (flashProgramWord current (startAddr / 0x800 * 0x800 + i)
        (wordOfBytes (data.drop j)), j + 4)
    else
      (flashProgramWord current (startAddr / 0x800 * 0x800 + i)
        (wordOfBytes (flashRead current (flashAddrReserve + i) 4)), j))
    (flash, 0)

/-- `Flash_Updata`.  Only a range inside one page is written; the branches for
the first, middle and last page of a longer range are empty in the source. -/
def flashUpdata (flash : Flash) (startAddr : Nat) (data : List UInt8)
    (size : Nat) : Flash :=
  let pageStart := startAddr / 0x800
  let pageEnd := (startAddr + size - 1) / 0x800
  (List.range (pageEnd + 1 - pageStart)).foldl (fun current eraseCounter =>
    let reserved := flashErasePage current flashAddrReserve
    if eraseCounter = 0 then
      if pageEnd = pageStart then
        let saved := flashUpdataSave reserved startAddr
        let erased := flashErasePage saved startAddr
        (flashUpdataFill erased startAddr data size).1
      else reserved
    else reserved) flash

end Tp79Boot
