import Tp79Boot.CountWords
import Tp79Boot.FriendStore
import Tp79Boot.FlashUpdata
import Tp79Boot.Lib.EventRun

/-!
# The friend store on the flash driver

`friend.c` on the flash as the driver reads and writes it.  The count that the
module writes is below 256, so it comes back from `Flash_Read` with its bytes
reversed and is zero modulo 256: the module never finds a friend that it has
added.
-/

namespace Tp79Boot

namespace OnFlash

open NorMemory EventRun

def friendDeinit (layout : FriendLayout) (flash : Flash) : Option Flash :=
  (flashErase flash layout.infoStart (8 * 1024)).map
    (friendWriteCnt layout.cntAddr 0)

def friendRead (layout : FriendLayout) (index : UInt8) (flash : Flash) :
    FriendT :=
  friendOfBytes
    (flashRead flash (friendSlot layout index.toNat) sizeofFriend)

/-- The loop of `friend_add` that looks for the identifier. -/
def friendFound (layout : FriendLayout) (fd : FriendT) (cnt : UInt32)
    (flash : Flash) : Bool :=
  (List.range cnt.toNat).any fun i =>
    (friendRead layout i.toUInt8 flash).friendId == fd.friendId

def friendAdd (layout : FriendLayout) (fd : FriendT) (flash : Flash) :
    UInt8 × Flash :=
  let cnt := friendReadCnt layout.cntAddr flash % 256
  if cnt + 1 < 256 then
    if friendFound layout fd cnt flash then (2, flash)
    else
      let stored := flashUpdata flash (friendSlot layout cnt.toNat)
        (friendBytes fd) sizeofFriend
      (1, friendWriteCnt layout.cntAddr (cnt + 1) stored)
  else (0, flash)

def friendDel (layout : FriendLayout) (index : UInt8) (flash : Flash) :
    UInt8 × Flash :=
  let cnt := friendReadCnt layout.cntAddr flash % 256
  if index.toUInt32 ≤ cnt ∧ 1 ≤ cnt then
    let temp :=
      flashRead flash (friendSlot layout (cnt - 1).toNat) sizeofFriend
    let stored :=
      flashUpdata flash (friendSlot layout index.toNat) temp sizeofFriend
    (1, friendWriteCnt layout.cntAddr (cnt - 1) stored)
  else (0, flash)

def friendStep (layout : FriendLayout) (flash : Flash) :
    FriendCall → Flash
  | .add fd => (friendAdd layout fd flash).2
  | .del index => (friendDel layout index flash).2

/-- No friend is known: none is counted, everyone is new, and nobody can be
deleted. -/
structure Forgotten (layout : FriendLayout) (flash : Flash) : Prop where
  count : friendReadCnt layout.cntAddr flash = 0
  adds : ∀ fd, (friendAdd layout fd flash).1 = 1
  refuses : ∀ index, friendDel layout index flash = (0, flash)

section

variable {layout : FriendLayout} {flash start : Flash}

theorem cntWord_onePage {cntAddr : Nat} (whole : 4 ∣ cntAddr) :
    OnePage cntAddr 4 := by
  unfold OnePage
  omega

theorem cntWord_contains {cntAddr place : Nat} (whole : 4 ∣ cntAddr)
    (inFlash : stm32f103ve.Contains cntAddr) (inside : place < 4) :
    stm32f103ve.Contains (cntAddr + place) := by
  unfold Geometry.Contains at inFlash ⊢
  simp only [stm32f103ve] at inFlash ⊢
  omega

theorem readWord_writeCnt {cntAddr : Nat} (whole : 4 ∣ cntAddr)
    (inFlash : stm32f103ve.Contains cntAddr) (cnt : UInt32) :
    readWord (friendWriteCnt cntAddr cnt flash).mem cntAddr = cnt := by
  have byte (place : Nat) (inside : place < 4) :
      (friendWriteCnt cntAddr cnt flash).mem (cntAddr + place) =
        byteAt (wordBytes cnt) place := by
    have stored := flashUpdata_inside flash (wordBytes cnt)
      (cntWord_onePage whole) whole (by decide)
      (cntWord_contains whole inFlash inside)
      ⟨Nat.le_add_right _ _, Nat.add_lt_add_left inside _⟩
    rwa [Nat.add_sub_cancel_left] at stored
  have first := byte 0 (by decide)
  rw [Nat.add_zero] at first
  rw [readWord, first, byte 1 (by decide), byte 2 (by decide),
    byte 3 (by decide)]
  exact wordOfBytes_wordBytes cnt

theorem friendReadCnt_small {cntAddr : Nat}
    (small : (readWord flash.mem cntAddr).toNat < 2 ^ 24) :
    friendReadCnt cntAddr flash = 0 := by
  have count := friendReadCnt_toNat cntAddr flash
  rw [Nat.div_eq_of_lt small] at count
  exact UInt32.toNat_inj.mp count

theorem friendReadCnt_writeCnt {cntAddr : Nat} {cnt : UInt32}
    (whole : 4 ∣ cntAddr) (inFlash : stm32f103ve.Contains cntAddr)
    (small : cnt.toNat < 2 ^ 24) :
    friendReadCnt cntAddr (friendWriteCnt cntAddr cnt flash) = 0 := by
  apply friendReadCnt_small
  rwa [readWord_writeCnt whole inFlash]

theorem friendAdd_zero (fd : FriendT)
    (zero : friendReadCnt layout.cntAddr flash = 0) :
    friendAdd layout fd flash =
      (1, friendWriteCnt layout.cntAddr 1
        (flashUpdata flash (friendSlot layout 0) (friendBytes fd)
          sizeofFriend)) := by
  unfold friendAdd
  rw [zero]
  rfl

theorem friendDel_zero (index : UInt8)
    (zero : friendReadCnt layout.cntAddr flash = 0) :
    friendDel layout index flash = (0, flash) := by
  unfold friendDel
  rw [zero, if_neg]
  intro some_
  exact absurd some_.2 (by decide)

theorem forgotten_of_zero (zero : friendReadCnt layout.cntAddr flash = 0) :
    Forgotten layout flash := by
  refine ⟨zero, ?_, fun index => friendDel_zero index zero⟩
  intro fd
  rw [friendAdd_zero fd zero]

theorem friendStep_zero (whole : 4 ∣ layout.cntAddr)
    (inFlash : stm32f103ve.Contains layout.cntAddr) (call : FriendCall)
    (zero : friendReadCnt layout.cntAddr flash = 0) :
    friendReadCnt layout.cntAddr (friendStep layout flash call) = 0 := by
  cases call with
  | add fd =>
      rw [friendStep, friendAdd_zero fd zero]
      exact friendReadCnt_writeCnt whole inFlash (by decide)
  | del index =>
      rw [friendStep, friendDel_zero index zero]
      exact zero

theorem friendDeinit_zero (whole : 4 ∣ layout.cntAddr)
    (inFlash : stm32f103ve.Contains layout.cntAddr)
    (deinit : friendDeinit layout flash = some start) :
    friendReadCnt layout.cntAddr start = 0 := by
  obtain ⟨erased, _, rfl⟩ := Option.map_eq_some_iff.mp deinit
  exact friendReadCnt_writeCnt whole inFlash (by decide)

/-- Whatever is added and deleted after `friend_deinit`, no friend is known:
every count that the module writes comes back from `Flash_Read` as zero. -/
theorem friend_store_forgets (whole : 4 ∣ layout.cntAddr)
    (inFlash : stm32f103ve.Contains layout.cntAddr)
    (deinit : friendDeinit layout flash = some start)
    (calls : List FriendCall) :
    Forgotten layout (run (friendStep layout) start calls) := by
  apply forgotten_of_zero
  refine @run_invariant _ _ (friendStep layout) start
    (fun flash => friendReadCnt layout.cntAddr flash = 0)
    (friendDeinit_zero whole inFlash deinit) ?_ calls
  intro state call zero
  exact friendStep_zero whole inFlash call zero

end

def friendPages : FriendLayout :=
  { cntAddr := 0x08072000
    infoStart := 0x08073000
    apart := by
      unfold ByteStore.Apart
      decide }

def someFriend : FriendT :=
  { friendId := Vector.replicate 4 0x31
    friendName := Vector.replicate 26 0x41
    friendCnt := 0 }

theorem friend_store_forgets_twice :
    ∃ start, friendDeinit friendPages blankFlash = some start ∧
      Forgotten friendPages (run (friendStep friendPages) start
        [.add someFriend, .add someFriend]) := by
  obtain ⟨erased, ends⟩ := Option.isSome_iff_exists.mp
    (flashErase_isSome blankFlash friendPages.infoStart
      (show 8 * 1024 / 0x800 < 256 by decide))
  have deinit : friendDeinit friendPages blankFlash =
      some (friendWriteCnt friendPages.cntAddr 0 erased) := by
    rw [friendDeinit, ends]
    rfl
  refine ⟨_, deinit, friend_store_forgets (by decide) ?_ deinit _⟩
  unfold Geometry.Contains
  decide

end OnFlash

end Tp79Boot
