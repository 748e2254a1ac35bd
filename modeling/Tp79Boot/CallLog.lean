import Tp79Boot.Lib.ByteStore
import Tp79Boot.Device

/-!
# The call log

`call_log.c` over a flash that keeps what is stored in it.  The counter word
counts calls and is used modulo the number of records in three ways: as the
next slot, as the newest slot when reading back, and as the newest slot when
deleting.  Addresses wrap at 32 bits as they do on the device.
-/

namespace Tp79Boot

open ByteStore

/-- `CALL_LOG_CONST_MAX`. -/
def callLogConstMax : UInt32 := 63

@[ext] structure CallLogT where
  callerName : Vector UInt8 26
  callerId : Vector UInt8 4
  time : Vector UInt8 4
  callType : UInt8
  reserve : Vector UInt8 29
deriving DecidableEq

def sizeofCallLog : Nat := 64

/-- `FLASH_ADDR_CALL_LOG_CNT` and `FLASH_ADDR_CALL_INFO_START`. -/
structure CallLogLayout where
  cntAddr : Nat
  infoStart : UInt32
  fits : infoStart.toNat + sizeofCallLog * 63 < 2 ^ 32
  apart : Apart cntAddr 4 infoStart.toNat (sizeofCallLog * 63)

/-- `FLASH_ADDR_CALL_INFO_END`. -/
def CallLogLayout.infoEnd (layout : CallLogLayout) : UInt32 :=
  layout.infoStart + 63 * 64

def callLogBytes (callLog : CallLogT) : List UInt8 :=
  callLog.callerName.toList ++ (callLog.callerId.toList ++
    (callLog.time.toList ++ (callLog.callType :: callLog.reserve.toList)))

def callLogOfBytes (bytes : List UInt8) : CallLogT :=
  { callerName := fieldAt bytes 0 26
    callerId := fieldAt bytes 26 4
    time := fieldAt bytes 30 4
    callType := byteAt bytes 34
    reserve := fieldAt bytes 35 29 }

@[simp] theorem callLogBytes_length (callLog : CallLogT) :
    (callLogBytes callLog).length = sizeofCallLog := by
  simp [callLogBytes, sizeofCallLog]

theorem fieldAt_cons (byte : UInt8) (rest : List UInt8) (offset size : Nat) :
    fieldAt (byte :: rest) (offset + 1) size = fieldAt rest offset size := by
  unfold fieldAt byteAt
  simp only [Nat.add_right_comm offset 1, List.getD_cons_succ]

theorem callLogOfBytes_callLogBytes (callLog : CallLogT) :
    callLogOfBytes (callLogBytes callLog) = callLog := by
  have past (offset size : Nat) :
      fieldAt (callLogBytes callLog) (26 + (4 + (4 + offset))) size =
        fieldAt (callLog.callType :: callLog.reserve.toList) offset size := by
    rw [callLogBytes, fieldAt_later, fieldAt_later, fieldAt_later]
  apply CallLogT.ext
  · exact fieldAt_first _ _
  · exact (fieldAt_later callLog.callerName _ 0 4).trans (fieldAt_first _ _)
  · exact (fieldAt_later callLog.callerName _ 4 4).trans
      ((fieldAt_later callLog.callerId _ 0 4).trans (fieldAt_first _ _))
  · have place : byteAt (callLogBytes callLog) (26 + (4 + (4 + 0))) =
        callLog.callType := by
      rw [callLogBytes, byteAt_field, byteAt_field, byteAt_field]
      rfl
    exact place
  · have first := fieldAt_first callLog.reserve []
    rw [List.append_nil] at first
    exact (past 1 29).trans ((fieldAt_cons _ _ 0 29).trans first)

/-- The counter word. -/
def callLogCnt (layout : CallLogLayout) (flash : Store UInt8) : UInt32 :=
  wordOfBytes (load flash layout.cntAddr 4)

def callLogReadCnt (layout : CallLogLayout) (flash : Store UInt8) : UInt8 :=
  let cntTemp := callLogCnt layout flash
  if callLogConstMax < cntTemp then callLogConstMax.toUInt8
  else cntTemp.toUInt8

def callLogWriteCnt (layout : CallLogLayout) (cnt : UInt32)
    (flash : Store UInt8) : Store UInt8 :=
  save flash layout.cntAddr (wordBytes cnt)

def callLogDeinit (layout : CallLogLayout) (flash : Store UInt8) : Store UInt8 :=
  callLogWriteCnt layout 0 (fill flash layout.cntAddr (4 * 1024) 0xFF)

/-- `FLASH_ADDR_CALL_INFO_START + slot * sizeof(call_log_t)`. -/
def callLogSlot (layout : CallLogLayout) (slot : UInt32) : UInt32 :=
  layout.infoStart + slot * 64

/-- The record is built on the stack; its `reserve` is what was there. -/
def callLogAdd (layout : CallLogLayout) (time : Vector UInt8 4)
    (name : Vector UInt8 26) (id : Vector UInt8 4) (type : UInt8)
    (reserve : Vector UInt8 29) (flash : Store UInt8) : Store UInt8 :=
  let callLog : CallLogT :=
    { callerName := name
      callerId := id
      time := time
      callType := type
      reserve := reserve }
  let cnt := callLogCnt layout flash
  let stored := save flash (callLogSlot layout (cnt % callLogConstMax)).toNat
    (callLogBytes callLog)
  callLogWriteCnt layout (cnt + 1) stored

def callLogDel (layout : CallLogLayout) (index : UInt8) (flash : Store UInt8) :
    Store UInt8 :=
  let cnt := callLogCnt layout flash % callLogConstMax - 1
  let target := callLogSlot layout (cnt - index.toUInt32)
  let source := callLogSlot layout (cnt - index.toUInt32 + 1)
  let moved := move flash target.toNat source.toNat
    (layout.infoEnd - source).toNat
  callLogWriteCnt layout cnt moved

def callLogRead (layout : CallLogLayout) (index : UInt8) (flash : Store UInt8) :
    CallLogT :=
  let cnt := callLogCnt layout flash
  let slot := (cnt - index.toUInt32) % callLogConstMax
  callLogOfBytes (load flash (callLogSlot layout slot).toNat sizeofCallLog)

/-- The record in a slot. -/
def callLogRecord (layout : CallLogLayout) (flash : Store UInt8) (slot : Nat) :
    CallLogT :=
  callLogOfBytes
    (load flash (layout.infoStart.toNat + slot * sizeofCallLog) sizeofCallLog)

section

variable {layout : CallLogLayout} {flash : Store UInt8} {cnt : UInt32}

theorem callLogCnt_write :
    callLogCnt layout (callLogWriteCnt layout cnt flash) = cnt := by
  have stored : load (callLogWriteCnt layout cnt flash) layout.cntAddr 4 =
      wordBytes cnt := load_save
  rw [callLogCnt, stored, wordOfBytes_wordBytes]

theorem callLogRecord_write {slot : Nat} (inside : slot < 63) :
    callLogRecord layout (callLogWriteCnt layout cnt flash) slot =
      callLogRecord layout flash slot := by
  have apart := (layout.apart.slot inside).symm
  rw [callLogRecord, callLogWriteCnt, load_save_apart apart]
  rfl

theorem callLogSlot_toNat {slot : UInt32} (inside : slot.toNat ≤ 63) :
    (callLogSlot layout slot).toNat =
      layout.infoStart.toNat + slot.toNat * sizeofCallLog := by
  have fits := layout.fits
  unfold sizeofCallLog at fits ⊢
  rw [callLogSlot, UInt32.toNat_add, UInt32.toNat_mul]
  simp only [UInt32.reduceToNat]
  omega

theorem infoEnd_toNat :
    layout.infoEnd.toNat = layout.infoStart.toNat + 63 * sizeofCallLog := by
  have last : (63 : UInt32).toNat ≤ 63 := Nat.le_refl 63
  exact callLogSlot_toNat last

theorem callLogRecord_save {slot other : Nat} {callLog : CallLogT} :
    callLogRecord layout (save flash
        (layout.infoStart.toNat + slot * sizeofCallLog) (callLogBytes callLog))
        other =
      if slot = other then callLog else callLogRecord layout flash other := by
  have whole := callLogBytes_length callLog
  unfold callLogRecord
  split
  · rename_i here
    rw [← here]
    have stored := @load_save _ flash
      (layout.infoStart.toNat + slot * sizeofCallLog) (callLogBytes callLog)
    rw [whole] at stored
    rw [stored, callLogOfBytes_callLogBytes]
  · rename_i elsewhere
    rw [load_save_apart]
    rw [whole]
    exact slots_apart _ _ (Ne.symm elsewhere)

/-- The flash with the slots from `first + 1` on moved down by one. -/
def callLogShift (layout : CallLogLayout) (first : Nat)
    (flash : Store UInt8) : Store UInt8 :=
  move flash (layout.infoStart.toNat + first * sizeofCallLog)
    (layout.infoStart.toNat + (first + 1) * sizeofCallLog)
    ((63 - (first + 1)) * sizeofCallLog)

/-- The move that `call_log_del` asks for. -/
theorem move_eq_shift {first : UInt32} (inside : first.toNat < 63) :
    move flash (callLogSlot layout first).toNat
        (callLogSlot layout (first + 1)).toNat
        (layout.infoEnd - callLogSlot layout (first + 1)).toNat =
      callLogShift layout first.toNat flash := by
  have next : (first + 1).toNat = first.toNat + 1 := by
    rw [UInt32.toNat_add]
    simp only [UInt32.reduceToNat]
    omega
  have target := @callLogSlot_toNat layout first (Nat.le_of_lt inside)
  have source := @callLogSlot_toNat layout (first + 1) (next ▸ inside)
  have size : (layout.infoEnd - callLogSlot layout (first + 1)).toNat =
      (63 - (first.toNat + 1)) * sizeofCallLog := by
    rw [UInt32.toNat_sub_of_le, infoEnd_toNat, source, next,
      Nat.add_sub_add_left, Nat.sub_mul]
    rw [UInt32.le_iff_toNat_le, infoEnd_toNat, source, next]
    exact Nat.add_le_add_left (Nat.mul_le_mul_right _ inside) _
  rw [target, source, next, size, callLogShift]

theorem callLogRecord_shift_older {first slot : Nat} (older : slot < first) :
    callLogRecord layout (callLogShift layout first flash) slot =
      callLogRecord layout flash slot := by
  have apart : Apart (layout.infoStart.toNat + slot * sizeofCallLog)
      sizeofCallLog (layout.infoStart.toNat + first * sizeofCallLog)
      ((63 - (first + 1)) * sizeofCallLog) := by
    unfold sizeofCallLog
    exact .inl (by omega)
  rw [callLogRecord, callLogShift, load_move_apart apart]
  rfl

theorem callLogRecord_shift_newer {first slot : Nat} (newer : first ≤ slot)
    (inside : slot + 1 < 63) :
    callLogRecord layout (callLogShift layout first flash) slot =
      callLogRecord layout flash (slot + 1) := by
  obtain ⟨further, rfl⟩ := Nat.exists_eq_add_of_le newer
  have moved := @load_move _ flash
    (layout.infoStart.toNat + first * sizeofCallLog) sizeofCallLog
    (layout.infoStart.toNat + (first + 1) * sizeofCallLog)
    ((63 - (first + 1)) * sizeofCallLog) (further * sizeofCallLog)
    (by unfold sizeofCallLog; omega)
  have target : layout.infoStart.toNat + first * sizeofCallLog +
      further * sizeofCallLog =
        layout.infoStart.toNat + (first + further) * sizeofCallLog := by
    rw [Nat.add_mul, Nat.add_assoc]
  have source : layout.infoStart.toNat + (first + 1) * sizeofCallLog +
      further * sizeofCallLog =
        layout.infoStart.toNat + (first + further + 1) * sizeofCallLog := by
    rw [Nat.add_assoc, ← Nat.add_mul, Nat.add_right_comm]
  rw [target, source] at moved
  rw [callLogRecord, callLogShift, moved]
  rfl

theorem callLogReadCnt_toNat :
    (callLogReadCnt layout flash).toNat =
      min (callLogCnt layout flash).toNat 63 := by
  simp only [callLogReadCnt]
  split
  · rename_i above
    rw [UInt32.lt_iff_toNat_lt] at above
    exact (Nat.min_eq_right (Nat.le_of_lt above)).symm
  · rename_i within
    rw [UInt32.lt_iff_toNat_lt] at within
    have small : (callLogCnt layout flash).toNat ≤ 63 := Nat.le_of_not_lt within
    rw [UInt32.toNat_toUInt8, Nat.min_eq_left small]
    exact Nat.mod_eq_of_lt (Nat.lt_of_le_of_lt small (by decide))

end

end Tp79Boot
