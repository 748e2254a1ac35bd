import Tp79Boot.CallLog
import Tp79Boot.FlashRoundTrip
import Tp79Boot.Friend

/-!
# Count words that were never written

`friend_init` and `call_log_init` look at a count through the function that
reads it, and that function never returns more than the bound they test for.
So neither of them resets anything.  The functions are those of the two stores,
on the flash as the driver reads and writes it.
-/

namespace Tp79Boot

namespace OnFlash

/-- The word that `Flash_Read` fills from flash. -/
def cntRead (cntAddr : Nat) (flash : Flash) : UInt32 :=
  wordOfBytes (flashRead flash cntAddr 4)

def friendReadCnt (cntAddr : Nat) (flash : Flash) : UInt32 :=
  cntRead cntAddr flash % 256

def friendWriteCnt (cntAddr : Nat) (cnt : UInt32) (flash : Flash) : Flash :=
  flashUpdata flash cntAddr (wordBytes cnt) 4

def friendInit (cntAddr : Nat) (flash : Flash) : Flash :=
  if 500 < friendReadCnt cntAddr flash then friendWriteCnt cntAddr 0 flash
  else flash

def callLogReadCnt (cntAddr : Nat) (flash : Flash) : UInt8 :=
  let cntTemp := cntRead cntAddr flash
  if callLogConstMax < cntTemp then callLogConstMax.toUInt8
  else cntTemp.toUInt8

def callLogWriteCnt (cntAddr : Nat) (cnt : UInt32) (flash : Flash) : Flash :=
  flashUpdata flash cntAddr (wordBytes cnt) 4

def callLogDeinit (cntAddr : Nat) (flash : Flash) : Option Flash :=
  (flashErase flash cntAddr (4 * 1024)).map (callLogWriteCnt cntAddr 0)

def callLogInit (cntAddr : Nat) (flash : Flash) : Option Flash :=
  if callLogConstMax.toUInt8 < callLogReadCnt cntAddr flash then
    callLogDeinit cntAddr flash
  else some flash

theorem friendReadCnt_lt (cntAddr : Nat) (flash : Flash) :
    friendReadCnt cntAddr flash < 256 := by
  rw [UInt32.lt_iff_toNat_lt, friendReadCnt, UInt32.toNat_mod]
  exact Nat.mod_lt _ (by decide)

theorem friendInit_eq (cntAddr : Nat) (flash : Flash) :
    friendInit cntAddr flash = flash := by
  rw [friendInit, if_neg]
  intro above
  have below := friendReadCnt_lt cntAddr flash
  rw [UInt32.lt_iff_toNat_lt] at above below
  exact absurd (Nat.lt_trans above below) (by decide)

theorem callLogReadCnt_le (cntAddr : Nat) (flash : Flash) :
    callLogReadCnt cntAddr flash ≤ callLogConstMax.toUInt8 := by
  rw [callLogReadCnt]
  split
  · exact UInt8.le_refl _
  next within =>
    have small : (cntRead cntAddr flash).toNat ≤ 63 := by
      have bound := UInt32.not_lt.mp within
      rwa [UInt32.le_iff_toNat_le] at bound
    rw [UInt8.le_iff_toNat_le, UInt32.toNat_toUInt8,
      Nat.mod_eq_of_lt (Nat.lt_of_le_of_lt small (by decide))]
    exact small

theorem callLogInit_eq (cntAddr : Nat) (flash : Flash) :
    callLogInit cntAddr flash = some flash := by
  rw [callLogInit, if_neg]
  exact UInt8.not_lt.mpr (callLogReadCnt_le cntAddr flash)

theorem flashRead_word (cntAddr : Nat) (flash : Flash) :
    flashRead flash cntAddr 4 = splitWord (readWord flash.mem cntAddr) :=
  List.append_nil (splitWord (readWord flash.mem cntAddr))

/-- The lowest byte that is read is the highest byte of the word. -/
theorem friendReadCnt_toNat (cntAddr : Nat) (flash : Flash) :
    (friendReadCnt cntAddr flash).toNat =
      (readWord flash.mem cntAddr).toNat / 2 ^ 24 := by
  have range := (readWord flash.mem cntAddr).toNat_lt
  have lowest : (cntRead cntAddr flash).toUInt8 =
      (readWord flash.mem cntAddr >>> 24).toUInt8 := by
    have bytes := wordBytes_wordOfBytes (flashRead flash cntAddr 4)
    have first := congrArg (fun bytes => byteAt bytes 0) bytes
    rw [flashRead_word] at first
    rw [cntRead, flashRead_word]
    exact first
  have low := congrArg UInt8.toNat lowest
  rw [UInt32.toNat_toUInt8, UInt32.toNat_toUInt8, UInt32.toNat_shiftRight,
    Nat.shiftRight_eq_div_pow] at low
  rw [friendReadCnt, UInt32.toNat_mod]
  refine low.trans (Nat.mod_eq_of_lt ?_)
  exact Nat.div_lt_of_lt_mul range

theorem callLogReadCnt_erased {cntAddr : Nat} {flash : Flash}
    (erased : readWord flash.mem cntAddr = 0xFFFFFFFF) :
    callLogReadCnt cntAddr flash = 63 := by
  have read : cntRead cntAddr flash = 0xFFFFFFFF := by
    rw [cntRead, flashRead_word, erased]
    decide
  rw [callLogReadCnt, read]
  decide

/-- After both functions no record is counted where the count was never
written: a friend count above 255, a call-log count as erased. -/
structure Recovers (friendCnt callLogCnt : Nat) (flash : Flash) : Prop where
  friend : 255 < (readWord flash.mem friendCnt).toNat →
    friendReadCnt friendCnt (friendInit friendCnt flash) = 0
  callLog : readWord flash.mem callLogCnt = 0xFFFFFFFF →
    ∃ after, callLogInit callLogCnt flash = some after ∧
      callLogReadCnt callLogCnt after = 0

/-- That is so only where the highest byte of the friend count happens to be
zero, and the call log has been written. -/
theorem recovers_iff (friendCnt callLogCnt : Nat) (flash : Flash) :
    Recovers friendCnt callLogCnt flash ↔
      (readWord flash.mem friendCnt).toNat < 2 ^ 24 ∧
        readWord flash.mem callLogCnt ≠ 0xFFFFFFFF := by
  have count := friendReadCnt_toNat friendCnt flash
  constructor
  · intro recovers
    constructor
    · by_contra large
      have unwritten : 255 < (readWord flash.mem friendCnt).toNat :=
        Nat.lt_of_lt_of_le (by decide) (Nat.le_of_not_lt large)
      have zero := recovers.friend unwritten
      rw [friendInit_eq] at zero
      rw [zero] at count
      exact large (Nat.lt_of_div_eq_zero (by decide) count.symm)
    · intro erased
      obtain ⟨after, init, zero⟩ := recovers.callLog erased
      rw [callLogInit_eq, Option.some.injEq] at init
      rw [← init, callLogReadCnt_erased erased] at zero
      exact absurd zero (by decide)
  · rintro ⟨small, written⟩
    constructor
    · intro _
      rw [Nat.div_eq_of_lt small] at count
      rw [friendInit_eq]
      exact UInt32.toNat_inj.mp count
    · intro erased
      exact absurd erased written

/-- On a new device 255 friends and 63 calls are listed. -/
theorem blank_not_recovered :
    friendReadCnt 0x08072000 (friendInit 0x08072000 blankFlash) = 255 ∧
      callLogReadCnt 0x08075000 blankFlash = 63 ∧
        ¬ Recovers 0x08072000 0x08075000 blankFlash := by
  have friendErased : (readWord blankFlash.mem 0x08072000) = 0xFFFFFFFF := by
    decide
  have callLogErased : readWord blankFlash.mem 0x08075000 = 0xFFFFFFFF := by
    decide
  have friends := friendReadCnt_toNat 0x08072000 blankFlash
  rw [friendErased] at friends
  refine ⟨?_, callLogReadCnt_erased callLogErased, ?_⟩
  · rw [friendInit_eq]
    exact UInt32.toNat_inj.mp friends
  · intro recovers
    obtain ⟨after, init, zero⟩ := recovers.callLog callLogErased
    rw [callLogInit_eq, Option.some.injEq] at init
    rw [← init, callLogReadCnt_erased callLogErased] at zero
    exact absurd zero (by decide)

end OnFlash

end Tp79Boot
