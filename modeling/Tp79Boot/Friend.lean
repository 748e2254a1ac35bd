import Tp79Boot.Lib.ByteStore
import Tp79Boot.Lib.EventRun
import Tp79Boot.Lib.SwapRemove
import Tp79Boot.Device

/-!
# The friend store

`friend.c` over a flash that keeps what is stored in it.  A counter word and an
array of 256 records lie at addresses that the flash map of the application
gives; all that matters here is that they do not meet.
-/

namespace Tp79Boot

open ByteStore

@[ext] structure FriendT where
  friendId : Vector UInt8 4
  friendName : Vector UInt8 26
  friendCnt : UInt16
deriving DecidableEq

def sizeofFriend : Nat := 32

/-- `FLASH_ADDR_FRIEND_CNT` and `FLASH_ADDR_FRIEND_INFO_START`. -/
structure FriendLayout where
  cntAddr : Nat
  infoStart : Nat
  apart : Apart cntAddr 4 infoStart (sizeofFriend * 256)

def halfwordBytes (halfword : UInt16) : List UInt8 :=
  [halfword.toUInt8, (halfword >>> 8).toUInt8]

def friendBytes (fd : FriendT) : List UInt8 :=
  fd.friendId.toList ++ (fd.friendName.toList ++ halfwordBytes fd.friendCnt)

def friendOfBytes (bytes : List UInt8) : FriendT :=
  { friendId := fieldAt bytes 0 4
    friendName := fieldAt bytes 4 26
    friendCnt :=
      (byteAt bytes 30).toUInt16 + ((byteAt bytes 31).toUInt16 <<< 8) }

@[simp] theorem friendBytes_length (fd : FriendT) :
    (friendBytes fd).length = sizeofFriend := by
  simp [friendBytes, halfwordBytes, sizeofFriend]

theorem friendBytes_cnt (fd : FriendT) (index : Nat) :
    byteAt (friendBytes fd) (4 + (26 + index)) =
      byteAt (halfwordBytes fd.friendCnt) index := by
  rw [friendBytes, byteAt_field, byteAt_field]

theorem halfword_of_bytes (halfword : UInt16) :
    (byteAt (halfwordBytes halfword) 0).toUInt16 +
      ((byteAt (halfwordBytes halfword) 1).toUInt16 <<< 8) = halfword := by
  have range := halfword.toNat_lt
  apply UInt16.toNat_inj.mp
  simp [byteAt, halfwordBytes, Nat.shiftRight_eq_div_pow, Nat.shiftLeft_eq]
  omega

/-- A record that is stored byte by byte is read back. -/
theorem friendOfBytes_friendBytes (fd : FriendT) :
    friendOfBytes (friendBytes fd) = fd := by
  have id : fieldAt (friendBytes fd) 0 4 = fd.friendId :=
    fieldAt_first _ _
  have name : fieldAt (friendBytes fd) 4 26 = fd.friendName :=
    (fieldAt_later fd.friendId _ 0 26).trans (fieldAt_first _ _)
  have low := friendBytes_cnt fd 0
  have high := friendBytes_cnt fd 1
  apply FriendT.ext
  · exact id
  · exact name
  · rw [← halfword_of_bytes fd.friendCnt, ← low, ← high]
    rfl

def friendReadCnt (layout : FriendLayout) (flash : Store UInt8) : UInt32 :=
  wordOfBytes (load flash layout.cntAddr 4) % 256

def friendWriteCnt (layout : FriendLayout) (cnt : UInt32)
    (flash : Store UInt8) : Store UInt8 :=
  save flash layout.cntAddr (wordBytes cnt)

def friendDeinit (layout : FriendLayout) (flash : Store UInt8) : Store UInt8 :=
  friendWriteCnt layout 0 (fill flash layout.infoStart (8 * 1024) 0xFF)

def friendSlot (layout : FriendLayout) (slot : Nat) : Nat :=
  layout.infoStart + slot * sizeofFriend

def friendRead (layout : FriendLayout) (index : UInt8) (flash : Store UInt8) :
    FriendT :=
  friendOfBytes (load flash (friendSlot layout index.toNat) sizeofFriend)

/-- The loop of `friend_add` that looks for the identifier. -/
def friendFound (layout : FriendLayout) (fd : FriendT) (cnt : UInt32)
    (flash : Store UInt8) : Bool :=
  (List.range cnt.toNat).any fun i =>
    (friendRead layout i.toUInt8 flash).friendId == fd.friendId

def friendAdd (layout : FriendLayout) (fd : FriendT) (flash : Store UInt8) :
    UInt8 × Store UInt8 :=
  let cnt := friendReadCnt layout flash % 256
  if cnt + 1 < 256 then
    if friendFound layout fd cnt flash then (2, flash)
    else
      let stored := save flash (friendSlot layout cnt.toNat) (friendBytes fd)
      (1, friendWriteCnt layout (cnt + 1) stored)
  else (0, flash)

def friendDel (layout : FriendLayout) (index : UInt8) (flash : Store UInt8) :
    UInt8 × Store UInt8 :=
  let cnt := friendReadCnt layout flash % 256
  if index.toUInt32 ≤ cnt ∧ 1 ≤ cnt then
    let temp := load flash (friendSlot layout (cnt - 1).toNat) sizeofFriend
    let stored := save flash (friendSlot layout index.toNat) temp
    (1, friendWriteCnt layout (cnt - 1) stored)
  else (0, flash)

/-- The records that are in use. -/
def friends (layout : FriendLayout) (flash : Store UInt8) : List FriendT :=
  (List.range (friendReadCnt layout flash).toNat).map fun index =>
    friendRead layout index.toUInt8 flash

def friendIds (layout : FriendLayout) (flash : Store UInt8) :
    List (Vector UInt8 4) :=
  (friends layout flash).map FriendT.friendId

section

variable {layout : FriendLayout} {flash : Store UInt8} {fd : FriendT}
  {cnt : UInt32} {index : UInt8}

@[simp] theorem friends_length :
    (friends layout flash).length = (friendReadCnt layout flash).toNat := by
  simp [friends]

theorem friends_getElem {place : Nat}
    (bound : place < (friends layout flash).length) :
    (friends layout flash)[place] = friendRead layout place.toUInt8 flash := by
  simp [friends]

theorem friendReadCnt_lt : (friendReadCnt layout flash).toNat < 256 := by
  unfold friendReadCnt
  rw [UInt32.toNat_mod]
  exact Nat.mod_lt _ (by decide)

theorem friendReadCnt_mod :
    friendReadCnt layout flash % 256 = friendReadCnt layout flash := by
  apply UInt32.toNat_inj.mp
  rw [UInt32.toNat_mod]
  exact Nat.mod_eq_of_lt friendReadCnt_lt

theorem friendReadCnt_write (small : cnt.toNat < 256) :
    friendReadCnt layout (friendWriteCnt layout cnt flash) = cnt := by
  have stored : load (friendWriteCnt layout cnt flash) layout.cntAddr 4 =
      wordBytes cnt := load_save
  apply UInt32.toNat_inj.mp
  rw [friendReadCnt, stored, wordOfBytes_wordBytes, UInt32.toNat_mod]
  exact Nat.mod_eq_of_lt small

theorem friendRead_toUInt8 {place : Nat} (inside : place < 256) :
    friendRead layout place.toUInt8 flash =
      friendOfBytes (load flash (friendSlot layout place) sizeofFriend) := by
  rw [friendRead, UInt8.toNat_ofNat_of_lt' inside]

theorem friendRead_writeCnt :
    friendRead layout index (friendWriteCnt layout cnt flash) =
      friendRead layout index flash := by
  have apart := (layout.apart.slot index.toNat_lt).symm
  rw [friendRead, friendWriteCnt, friendSlot, load_save_apart apart]
  rfl

theorem friendRead_save {slot : Nat} {data : List UInt8}
    (whole : data.length = sizeofFriend) :
    friendRead layout index (save flash (friendSlot layout slot) data) =
      if slot = index.toNat then friendOfBytes data
      else friendRead layout index flash := by
  unfold friendRead
  split
  · rename_i here
    rw [here, ← whole, load_save]
  · rename_i elsewhere
    have apart := slots_apart layout.infoStart sizeofFriend
      (Ne.symm elsewhere)
    have frame : load (save flash (friendSlot layout slot) data)
        (friendSlot layout index.toNat) sizeofFriend =
          load flash (friendSlot layout index.toNat) sizeofFriend := by
      apply load_save_apart
      rw [whole]
      exact apart
    rw [frame]

end

end Tp79Boot
