import Tp79Boot.FlashLaws

/-!
# The stored configuration

`device.c`: the version the board believes to run, kept in one page of flash.
It is saved with `Flash_Write` and read with `Flash_Read`, so what is read is
not what was saved: every word comes back with its bytes reversed.
-/

namespace Tp79Boot

open NorMemory

structure DeviceCfg where
  initFlag : UInt32
  ver : Vector UInt8 32
deriving DecidableEq

def sizeofDeviceCfg : Nat := 36

/-- `VER_SOFT`. -/
def verSoft : List UInt8 := ascii "TYT_TP79V02_V190"

/-- `memcpy(field, source, count)`. -/
def memcpyField {size : Nat} (field : Vector UInt8 size) (source : List UInt8)
    (count : Nat) : Vector UInt8 size :=
  Vector.ofFn fun index =>
    if index.val < count then byteAt source index else field[index]

/-- `memset(&field[start], 0, size - start)`. -/
def clearField {size : Nat} (field : Vector UInt8 size) (start : Nat) :
    Vector UInt8 size :=
  Vector.ofFn fun index => if start ≤ index.val then 0 else field[index]

@[simp] theorem memcpyField_getElem {size : Nat} (field : Vector UInt8 size)
    (source : List UInt8) (count index : Nat) (bound : index < size) :
    (memcpyField field source count)[index] =
      if index < count then byteAt source index else field[index] := by
  simp [memcpyField]

@[simp] theorem clearField_getElem {size : Nat} (field : Vector UInt8 size)
    (start index : Nat) (bound : index < size) :
    (clearField field start)[index] =
      if start ≤ index then 0 else field[index] := by
  simp [clearField]

theorem copyOnly_getElem {size : Nat} (field : Vector UInt8 size)
    (source : List UInt8) (count finish index : Nat) (bound : index < size) :
    (clearField (memcpyField (clearField field 0) source count) finish)[index] =
      if index < count ∧ index < finish then byteAt source index else 0 := by
  simp only [clearField_getElem, memcpyField_getElem]
  by_cases past : finish ≤ index
  · rw [if_pos past, if_neg (fun both => Nat.not_le_of_gt both.2 past)]
  · by_cases inside : index < count
    · rw [if_neg past, if_pos inside, if_pos ⟨inside, Nat.lt_of_not_le past⟩]
    · rw [if_neg past, if_neg inside, if_pos (Nat.zero_le index),
        if_neg (fun both => inside both.1)]

/-- A field of `size` bytes, `offset` bytes into a record. -/
def fieldAt (bytes : List UInt8) (offset size : Nat) : Vector UInt8 size :=
  Vector.ofFn fun index => byteAt bytes (offset + index)

theorem fieldAt_first {size : Nat} (field : Vector UInt8 size)
    (rest : List UInt8) : fieldAt (field.toList ++ rest) 0 size = field := by
  apply Vector.ext
  intro index bound
  have inside : index < field.toList.length := by simpa using bound
  simp only [fieldAt, Vector.getElem_ofFn, Nat.zero_add]
  rw [byteAt_append_left inside, byteAt_toList _ bound]

theorem byteAt_field {size : Nat} (field : Vector UInt8 size)
    (rest : List UInt8) (offset : Nat) :
    byteAt (field.toList ++ rest) (size + offset) = byteAt rest offset := by
  have position := byteAt_append_right field.toList rest offset
  rwa [Vector.length_toList] at position

theorem fieldAt_later {size : Nat} (field : Vector UInt8 size)
    (rest : List UInt8) (offset count : Nat) :
    fieldAt (field.toList ++ rest) (size + offset) count =
      fieldAt rest offset count := by
  unfold fieldAt
  simp only [Nat.add_assoc, byteAt_field]

/-- The bytes at `&device_cfg`. -/
def deviceCfgBytes (deviceCfg : DeviceCfg) : List UInt8 :=
  wordBytes deviceCfg.initFlag ++ deviceCfg.ver.toList

/-- `device_cfg` after bytes have been copied over it. -/
def deviceCfgOfBytes (bytes : List UInt8) : DeviceCfg :=
  { initFlag := wordOfBytes bytes
    ver := Vector.ofFn fun index => byteAt bytes (4 + index) }

def deviceConfigSaveFlash (deviceCfg : DeviceCfg) (flash : Flash) : Flash :=
  let erased := (flashErase flash flashAddrUserStart (2 * 1024)).get
    (flashErase_isSome flash flashAddrUserStart onePage_turns)
  flashWrite erased flashAddrUserStart (deviceCfgBytes deviceCfg)
    sizeofDeviceCfg

def deviceConfigRead (flash : Flash) : DeviceCfg :=
  deviceCfgOfBytes (flashRead flash flashAddrUserStart sizeofDeviceCfg)

def deviceInit (flash : Flash) : DeviceCfg × Flash :=
  let deviceCfg := deviceConfigRead flash
  if deviceCfg.initFlag ≠ 0x66666666 then
    let deviceCfg :=
      { initFlag := 0x66666666
        ver := memcpyField deviceCfg.ver verSoft verSoft.length }
    (deviceCfg, deviceConfigSaveFlash deviceCfg flash)
  else (deviceCfg, flash)

@[simp] theorem deviceCfgBytes_length (deviceCfg : DeviceCfg) :
    (deviceCfgBytes deviceCfg).length = sizeofDeviceCfg := by
  simp [deviceCfgBytes, sizeofDeviceCfg]

theorem deviceCfgBytes_ver (deviceCfg : DeviceCfg) {index : Nat}
    (bound : index < 32) :
    byteAt (deviceCfgBytes deviceCfg) (4 + index) = deviceCfg.ver[index] := by
  have field := byteAt_append_right (wordBytes deviceCfg.initFlag)
    deviceCfg.ver.toList index
  rw [wordBytes_length] at field
  rw [deviceCfgBytes, field, byteAt_toList _ bound]

theorem deviceConfigSaveFlash_eq (deviceCfg : DeviceCfg) (flash : Flash) :
    deviceConfigSaveFlash deviceCfg flash =
      flashWrite (flash.execAll stm32f103ve (eraseOps flashAddrUserStart 1))
        flashAddrUserStart (deviceCfgBytes deviceCfg) sizeofDeviceCfg := by
  have erased := flashErase_eq flash flashAddrUserStart onePage_turns
  simp [deviceConfigSaveFlash, erased]

theorem deviceConfigSaveFlash_stores (deviceCfg : DeviceCfg) (flash : Flash)
    {index : Nat} (bound : index < sizeofDeviceCfg) :
    (deviceConfigSaveFlash deviceCfg flash).mem (flashAddrUserStart + index) =
      byteAt (deviceCfgBytes deviceCfg) index := by
  have aligned : 0x800 ∣ flashAddrUserStart := by decide
  have flashAddress : stm32f103ve.Contains (flashAddrUserStart + index) := by
    unfold Geometry.Contains flashAddrUserStart flashAddrBootFlag
      flashAddrReserve
    unfold sizeofDeviceCfg at bound
    simp only [stm32f103ve]
    omega
  have inPage : flashAddrUserStart ≤ flashAddrUserStart + index ∧
      flashAddrUserStart + index < flashAddrUserStart + 1 * 0x800 := by
    unfold sizeofDeviceCfg at bound
    omega
  rw [deviceConfigSaveFlash_eq, flashWrite_mem _ _ _ (by decide),
    if_pos ⟨flashAddress, by omega, by omega⟩, Device.execAll_mem,
    replay_eraseOps aligned, if_pos ⟨flashAddress, inPage⟩, and_of_blank rfl,
    Nat.add_sub_cancel_left]

theorem deviceConfigSaveFlash_outside (deviceCfg : DeviceCfg) (flash : Flash)
    {target : Nat}
    (outside : ¬(flashAddrUserStart ≤ target ∧
      target < flashAddrUserStart + 0x800)) :
    (deviceConfigSaveFlash deviceCfg flash).mem target = flash.mem target := by
  have aligned : 0x800 ∣ flashAddrUserStart := by decide
  have notWritten : ¬(stm32f103ve.Contains target ∧
      flashAddrUserStart ≤ target ∧
        target < flashAddrUserStart + sizeofDeviceCfg) := by
    unfold sizeofDeviceCfg
    omega
  have notErased : ¬(stm32f103ve.Contains target ∧
      flashAddrUserStart ≤ target ∧
        target < flashAddrUserStart + 1 * 0x800) :=
    fun both => outside both.2
  rw [deviceConfigSaveFlash_eq, flashWrite_mem _ _ _ (by decide),
    if_neg notWritten, Device.execAll_mem, replay_eraseOps aligned,
    if_neg notErased]

theorem deviceConfigRead_ver (flash : Flash) {index : Nat} (bound : index < 32) :
    (deviceConfigRead flash).ver[index] =
      flash.mem (flashAddrUserStart + (4 + mirrored index)) := by
  have position : mirrored (4 + index) = 4 + mirrored index := by
    unfold mirrored
    omega
  have inside : 4 + index < sizeofDeviceCfg := by
    unfold sizeofDeviceCfg
    omega
  simp only [deviceConfigRead, deviceCfgOfBytes, Vector.getElem_ofFn]
  rw [flashRead_byteAt _ _ inside, position]

theorem deviceConfigRead_initFlag (flash : Flash) :
    (deviceConfigRead flash).initFlag = wordOfBytes
      [flash.mem (flashAddrUserStart + 3), flash.mem (flashAddrUserStart + 2),
        flash.mem (flashAddrUserStart + 1), flash.mem flashAddrUserStart] := by
  have entry {index : Nat} (bound : index < 4) :
      byteAt (flashRead flash flashAddrUserStart sizeofDeviceCfg) index =
        flash.mem (flashAddrUserStart + mirrored index) :=
    flashRead_byteAt _ _ (Nat.lt_of_lt_of_le bound (by decide))
  have first := entry (show 0 < 4 by decide)
  have second := entry (show 1 < 4 by decide)
  have third := entry (show 2 < 4 by decide)
  have fourth := entry (show 3 < 4 by decide)
  simp only [deviceConfigRead, deviceCfgOfBytes, wordOfBytes, first, second,
    third, fourth]
  rfl

/-- The version field that is read after saving has the saved words with
their bytes in the opposite order. -/
theorem deviceConfigRead_saved (deviceCfg : DeviceCfg) (flash : Flash)
    {index : Nat} (bound : index < 32) :
    (deviceConfigRead (deviceConfigSaveFlash deviceCfg flash)).ver[index] =
      byteAt deviceCfg.ver.toList (mirrored index) := by
  have inside : mirrored index < 32 := mirrored_lt (by decide) bound
  have within : 4 + mirrored index < sizeofDeviceCfg := by
    unfold sizeofDeviceCfg
    omega
  rw [deviceConfigRead_ver _ bound, deviceConfigSaveFlash_stores _ _ within,
    deviceCfgBytes_ver _ inside, byteAt_toList _ inside]

/-- Only the stored configuration decides what is read. -/
theorem deviceConfigRead_congr {first second : Flash}
    (same : ∀ index, index < sizeofDeviceCfg →
      first.mem (flashAddrUserStart + index) =
        second.mem (flashAddrUserStart + index)) :
    deviceConfigRead first = deviceConfigRead second := by
  have whole : 4 ∣ sizeofDeviceCfg := by decide
  have bytes : flashRead first flashAddrUserStart sizeofDeviceCfg =
      flashRead second flashAddrUserStart sizeofDeviceCfg := by
    apply (eq_iff_byteAt (by simp)).mpr
    intro index bound
    rw [flashRead_length] at bound
    rw [flashRead_byteAt _ _ bound, flashRead_byteAt _ _ bound,
      same _ (mirrored_lt whole bound)]
  rw [deviceConfigRead, deviceConfigRead, bytes]

theorem deviceInit_of_initFlag {flash : Flash}
    (flag : (deviceConfigRead flash).initFlag = 0x66666666) :
    deviceInit flash = (deviceConfigRead flash, flash) := by
  have settled : ¬(deviceConfigRead flash).initFlag ≠ 0x66666666 :=
    not_not.mpr flag
  simp only [deviceInit, if_neg settled]

/-- The flag reads the same from both ends, so it survives. -/
theorem deviceConfigRead_saved_initFlag (ver : Vector UInt8 32)
    (flash : Flash) :
    (deviceConfigRead (deviceConfigSaveFlash
      { initFlag := 0x66666666, ver := ver } flash)).initFlag =
      0x66666666 := by
  have entry {index : Nat} (bound : index < 4) :
      (deviceConfigSaveFlash { initFlag := 0x66666666, ver := ver } flash).mem
          (flashAddrUserStart + index) =
        byteAt (wordBytes 0x66666666) index := by
    have inside : index < sizeofDeviceCfg :=
      Nat.lt_of_lt_of_le bound (by decide)
    rw [deviceConfigSaveFlash_stores _ _ inside, deviceCfgBytes,
      byteAt_append_left (by simpa using bound)]
  have first := entry (show 0 < 4 by decide)
  have second := entry (show 1 < 4 by decide)
  have third := entry (show 2 < 4 by decide)
  have fourth := entry (show 3 < 4 by decide)
  rw [Nat.add_zero] at first
  rw [deviceConfigRead_initFlag, first, second, third, fourth]
  decide

end Tp79Boot
