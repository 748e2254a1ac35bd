import Mathlib.Data.List.Nodup
import Tp79Boot.Friend

/-!
# Adding and deleting friends

What one call does to the list of the records in use, and what follows for any
history of calls after `friend_deinit`.
-/

namespace Tp79Boot

open ByteStore EventRun SwapRemove

section

variable {layout : FriendLayout} {flash : Store UInt8} {fd : FriendT}
  {index : UInt8}

theorem friends_write {slot : Nat} {data : List UInt8} {cnt : UInt32}
    (whole : data.length = sizeofFriend) (small : cnt.toNat < 256) :
    friends layout (friendWriteCnt layout cnt
        (save flash (friendSlot layout slot) data)) =
      (List.range cnt.toNat).map fun place =>
        if slot = place then friendOfBytes data
        else friendRead layout place.toUInt8 flash := by
  unfold friends
  rw [friendReadCnt_write small]
  apply List.map_congr_left
  intro place member
  have range := Nat.lt_trans (List.mem_range.mp member) small
  have position : place.toUInt8.toNat = place :=
    UInt8.toNat_ofNat_of_lt' range
  rw [friendRead_writeCnt, friendRead_save whole, position]

theorem friendFound_iff :
    friendFound layout fd (friendReadCnt layout flash) flash = true ↔
      fd.friendId ∈ friendIds layout flash := by
  simp [friendFound, friendIds, friends]

theorem friendAdd_full (full : ¬(friends layout flash).length < 255) :
    friendAdd layout fd flash = (0, flash) := by
  have range : (friendReadCnt layout flash).toNat < 256 := friendReadCnt_lt
  have refused : ¬friendReadCnt layout flash + 1 < 256 := by
    rw [friends_length] at full
    rw [UInt32.lt_iff_toNat_lt, UInt32.toNat_add]
    simp only [UInt32.reduceToNat]
    omega
  simp only [friendAdd, friendReadCnt_mod, if_neg refused]

theorem friendReadCnt_succ (room : (friends layout flash).length < 255) :
    (friendReadCnt layout flash + 1).toNat =
      (friends layout flash).length + 1 := by
  rw [friends_length] at room ⊢
  rw [UInt32.toNat_add]
  simp only [UInt32.reduceToNat]
  omega

theorem friendAdd_room (room : (friends layout flash).length < 255) :
    friendReadCnt layout flash + 1 < 256 := by
  rw [UInt32.lt_iff_toNat_lt, friendReadCnt_succ room]
  exact Nat.succ_lt_succ room

theorem friendAdd_known (room : (friends layout flash).length < 255)
    (known : fd.friendId ∈ friendIds layout flash) :
    friendAdd layout fd flash = (2, flash) := by
  simp only [friendAdd, friendReadCnt_mod, if_pos (friendAdd_room room),
    if_pos (friendFound_iff.mpr known)]

theorem friendAdd_fresh (room : (friends layout flash).length < 255)
    (fresh : fd.friendId ∉ friendIds layout flash) :
    friendAdd layout fd flash =
      (1, friendWriteCnt layout (friendReadCnt layout flash + 1)
        (save flash (friendSlot layout (friendReadCnt layout flash).toNat)
          (friendBytes fd))) := by
  have notFound :
      ¬friendFound layout fd (friendReadCnt layout flash) flash = true :=
    fun found => fresh (friendFound_iff.mp found)
  simp only [friendAdd, friendReadCnt_mod, if_pos (friendAdd_room room),
    if_neg notFound]

theorem friendAdd_friends (room : (friends layout flash).length < 255)
    (fresh : fd.friendId ∉ friendIds layout flash) :
    friends layout (friendAdd layout fd flash).2 =
      friends layout flash ++ [fd] := by
  have next := friendReadCnt_succ room
  have small : (friendReadCnt layout flash + 1).toNat < 256 := by
    rw [next]
    exact Nat.succ_lt_succ room
  rw [friendAdd_fresh room fresh, friends_write (friendBytes_length fd) small,
    next, ← friends_length]
  apply List.ext_getElem
  · simp
  · intro place bound _
    rw [List.length_map, List.length_range] at bound
    rw [List.getElem_map, List.getElem_range, List.getElem_append]
    rcases Nat.lt_or_ge place (friends layout flash).length with
      earlier | final
    · rw [if_neg (Nat.ne_of_gt earlier), dif_pos earlier, friends_getElem]
    · have last : (friends layout flash).length = place := by omega
      rw [if_pos last, dif_neg (Nat.not_lt_of_ge final),
        friendOfBytes_friendBytes]
      simp

theorem friendDel_refused
    (outside : (friends layout flash).length < index.toNat ∨
      (friends layout flash).length = 0) :
    friendDel layout index flash = (0, flash) := by
  rw [friends_length] at outside
  have refused : ¬(index.toUInt32 ≤ friendReadCnt layout flash ∧
      1 ≤ friendReadCnt layout flash) := by
    rw [UInt32.le_iff_toNat_le, UInt32.le_iff_toNat_le, UInt8.toNat_toUInt32]
    simp only [UInt32.reduceToNat]
    omega
  simp only [friendDel, friendReadCnt_mod, if_neg refused]

theorem friendDel_taken (inside : index.toNat ≤ (friends layout flash).length)
    (some : 1 ≤ (friends layout flash).length) :
    friendDel layout index flash =
      (1, friendWriteCnt layout (friendReadCnt layout flash - 1)
        (save flash (friendSlot layout index.toNat)
          (load flash (friendSlot layout
            (friendReadCnt layout flash - 1).toNat) sizeofFriend))) := by
  rw [friends_length] at inside some
  have taken : index.toUInt32 ≤ friendReadCnt layout flash ∧
      1 ≤ friendReadCnt layout flash := by
    rw [UInt32.le_iff_toNat_le, UInt32.le_iff_toNat_le, UInt8.toNat_toUInt32]
    exact ⟨inside, some⟩
  simp only [friendDel, friendReadCnt_mod, if_pos taken]

theorem friendDel_friends (inside : index.toNat < (friends layout flash).length) :
    friends layout (friendDel layout index flash).2 =
      swapRemove (friends layout flash) index.toNat := by
  have some : 1 ≤ (friends layout flash).length :=
    Nat.lt_of_le_of_lt (Nat.zero_le _) inside
  have before : (friendReadCnt layout flash - 1).toNat =
      (friends layout flash).length - 1 := by
    rw [friends_length] at some ⊢
    rw [UInt32.toNat_sub_of_le]
    · rfl
    · rw [UInt32.le_iff_toNat_le]
      exact some
  have range : (friends layout flash).length < 256 := by
    rw [friends_length]
    exact friendReadCnt_lt
  have small : (friendReadCnt layout flash - 1).toNat < 256 := by
    rw [before]
    exact Nat.lt_of_le_of_lt (Nat.sub_le _ _) range
  rw [friendDel_taken (Nat.le_of_lt inside) some,
    friends_write load_length small, before]
  apply List.ext_getElem
  · simp
  · intro place bound _
    rw [List.length_map, List.length_range] at bound
    have kept : place < (friends layout flash).length := by omega
    have final : (friends layout flash).length - 1 <
        (friends layout flash).length := by omega
    rw [List.getElem_map, List.getElem_range,
      swapRemove_getElem _ kept final, friends_getElem, friends_getElem,
      ← friendRead_toUInt8 (Nat.lt_trans final range)]

theorem friendDel_atEnd (some : 1 ≤ (friends layout flash).length)
    (atEnd : index.toNat = (friends layout flash).length) :
    (friendDel layout index flash).1 = 1 := by
  rw [friendDel_taken (Nat.le_of_eq atEnd) some]

end

inductive FriendCall where
  | add (fd : FriendT)
  | del (index : UInt8)

def friendStep (layout : FriendLayout) (flash : Store UInt8) :
    FriendCall → Store UInt8
  | .add fd => (friendAdd layout fd flash).2
  | .del index => (friendDel layout index flash).2

/-- No two records in use have the same identifier. -/
def FriendsDistinct (layout : FriendLayout) (flash : Store UInt8) : Prop :=
  (friendIds layout flash).Nodup

/-- `friend_add` appends a new record, or changes nothing. -/
structure AddMeets (layout : FriendLayout) (flash : Store UInt8)
    (fd : FriendT) : Prop where
  appended : fd.friendId ∉ friendIds layout flash →
    (friendReadCnt layout flash).toNat < 255 →
    (friendAdd layout fd flash).1 = 1 ∧
      friends layout (friendAdd layout fd flash).2 =
        friends layout flash ++ [fd]
  refused : ¬(fd.friendId ∉ friendIds layout flash ∧
      (friendReadCnt layout flash).toNat < 255) →
    ((friendAdd layout fd flash).1 = 2 ∨
      (friendAdd layout fd flash).1 = 0) ∧
      (friendAdd layout fd flash).2 = flash

/-- `friend_del` removes the record at the index, or changes nothing. -/
structure DelMeets (layout : FriendLayout) (flash : Store UInt8)
    (index : UInt8) : Prop where
  removed : index.toNat < (friendReadCnt layout flash).toNat →
    (friendDel layout index flash).1 = 1 ∧
      friends layout (friendDel layout index flash).2 =
        swapRemove (friends layout flash) index.toNat
  refused : ¬index.toNat < (friendReadCnt layout flash).toNat →
    friendDel layout index flash = (0, flash)

def FriendCall.Meets (layout : FriendLayout) (flash : Store UInt8) :
    FriendCall → Prop
  | .add fd => AddMeets layout flash fd
  | .del index => DelMeets layout flash index

/-- The call does not delete at the number of the records, unless there are
none. -/
def FriendCall.NotAtEnd (layout : FriendLayout) (flash : Store UInt8) :
    FriendCall → Prop
  | .add _ => True
  | .del index =>
      index.toNat = (friendReadCnt layout flash).toNat → index = 0

instance (layout : FriendLayout) (flash : Store UInt8) (call : FriendCall) :
    Decidable (call.NotAtEnd layout flash) :=
  match call with
  | .add _ => inferInstanceAs (Decidable True)
  | .del _ => inferInstanceAs (Decidable (_ → _))

section

variable {layout : FriendLayout} {flash : Store UInt8}

theorem friendAdd_meets (fd : FriendT) : AddMeets layout flash fd := by
  constructor
  · intro fresh room
    rw [← friends_length] at room
    refine ⟨?_, friendAdd_friends room fresh⟩
    rw [friendAdd_fresh room fresh]
  · intro refused
    rw [← friends_length] at refused
    by_cases room : (friends layout flash).length < 255
    · have known : fd.friendId ∈ friendIds layout flash := by
        by_contra fresh
        exact refused ⟨fresh, room⟩
      rw [friendAdd_known room known]
      exact ⟨.inl rfl, rfl⟩
    · rw [friendAdd_full room]
      exact ⟨.inr rfl, rfl⟩

theorem friendDel_meets_iff (index : UInt8) :
    DelMeets layout flash index ↔
      (index.toNat = (friendReadCnt layout flash).toNat → index = 0) := by
  rw [← friends_length]
  constructor
  · intro meets atEnd
    rcases Nat.eq_zero_or_pos (friends layout flash).length with
      empty | some
    · exact UInt8.toNat_inj.mp (atEnd.trans empty)
    · have code := friendDel_atEnd some atEnd
      rw [friends_length] at atEnd
      rw [meets.refused (Nat.not_lt_of_ge (Nat.le_of_eq atEnd.symm))] at code
      cases code
  · intro notAtEnd
    constructor
    · intro inside
      rw [← friends_length] at inside
      refine ⟨?_, friendDel_friends inside⟩
      rw [friendDel_taken (Nat.le_of_lt inside)
        (Nat.lt_of_le_of_lt (Nat.zero_le _) inside)]
    · intro outside
      rw [← friends_length] at outside
      apply friendDel_refused
      rcases Nat.lt_or_eq_of_le (Nat.le_of_not_lt outside) with past | atEnd
      · exact .inl past
      · have first := notAtEnd atEnd.symm
        subst first
        exact .inr atEnd

theorem FriendCall.meets_iff (call : FriendCall) :
    call.Meets layout flash ↔ call.NotAtEnd layout flash := by
  cases call with
  | add fd => exact iff_of_true (friendAdd_meets fd) trivial
  | del index => exact friendDel_meets_iff index

theorem friendAdd_distinct (fd : FriendT)
    (distinct : FriendsDistinct layout flash) :
    FriendsDistinct layout (friendAdd layout fd flash).2 := by
  have meets : AddMeets layout flash fd := friendAdd_meets fd
  by_cases taken : fd.friendId ∉ friendIds layout flash ∧
      (friendReadCnt layout flash).toNat < 255
  · rw [FriendsDistinct, friendIds, (meets.appended taken.1 taken.2).2,
      List.map_append]
    exact List.Nodup.append distinct (List.nodup_singleton _)
      (List.disjoint_singleton.mpr taken.1)
  · rw [(meets.refused taken).2]
    exact distinct

theorem friendDel_distinct {index : UInt8}
    (meets : DelMeets layout flash index)
    (distinct : FriendsDistinct layout flash) :
    FriendsDistinct layout (friendDel layout index flash).2 := by
  by_cases inside : index.toNat < (friendReadCnt layout flash).toNat
  · have place : index.toNat < (friendIds layout flash).length := by
      rw [friendIds, List.length_map, friends_length]
      exact inside
    rw [FriendsDistinct, friendIds, (meets.removed inside).2, swapRemove_map]
    exact swapRemove_nodup place distinct
  · rw [meets.refused inside]
    exact distinct

theorem friendStep_distinct (call : FriendCall)
    (admitted : call.NotAtEnd layout flash)
    (distinct : FriendsDistinct layout flash) :
    FriendsDistinct layout (friendStep layout flash call) := by
  cases call with
  | add fd => exact friendAdd_distinct fd distinct
  | del index =>
      exact friendDel_distinct ((friendDel_meets_iff index).mpr admitted)
        distinct

end

theorem friendDeinit_friends (layout : FriendLayout) (flash : Store UInt8) :
    friends layout (friendDeinit layout flash) = [] := by
  apply List.eq_nil_of_length_eq_zero
  rw [friends_length, friendDeinit, friendReadCnt_write (by decide)]
  rfl

theorem friendDeinit_distinct (layout : FriendLayout) (flash : Store UInt8) :
    FriendsDistinct layout (friendDeinit layout flash) := by
  rw [FriendsDistinct, friendIds, friendDeinit_friends]
  exact List.nodup_nil

theorem friendDeinit_add (layout : FriendLayout) (flash : Store UInt8)
    (fd : FriendT) :
    friends layout (friendAdd layout fd (friendDeinit layout flash)).2 =
      [fd] := by
  have empty := friendDeinit_friends layout flash
  rw [friendAdd_friends, empty]
  · rfl
  · rw [empty]
    decide
  · rw [friendIds, empty]
    exact List.not_mem_nil

/-- The store is a list without duplicates, and every call does to it what is
expected, exactly as long as no call deletes at the end of a list that is not
empty. -/
theorem friendStore_meets_iff (layout : FriendLayout) (flash : Store UInt8)
    (calls : List FriendCall) :
    (Always (friendStep layout) (FriendsDistinct layout)
        (friendDeinit layout flash) calls ∧
      Admitted (friendStep layout) (FriendCall.Meets layout)
        (friendDeinit layout flash) calls) ↔
      Admitted (friendStep layout) (FriendCall.NotAtEnd layout)
        (friendDeinit layout flash) calls := by
  constructor
  · rintro ⟨_, met⟩ before call after equality
    exact call.meets_iff.mp (met before call after equality)
  · intro admitted
    constructor
    · rintro before after rfl
      exact run_invariant_of_admitted (friendDeinit_distinct layout flash)
        (fun _ call distinct here => friendStep_distinct call here distinct)
        admitted.of_append
    · intro before call after equality
      exact call.meets_iff.mpr (admitted before call after equality)

/-- The records directly after the counter. -/
def packedLayout : FriendLayout :=
  { cntAddr := 0
    infoStart := 4
    apart := .inl (Nat.le_refl 4) }

def aFriend : FriendT :=
  { friendId := Vector.replicate 4 7
    friendName := Vector.replicate 26 0
    friendCnt := 0 }

/-- With one friend stored, deleting at index one deletes it. -/
theorem friendStore_meets_pastTheEnd :
    ¬(Always (friendStep packedLayout) (FriendsDistinct packedLayout)
          (friendDeinit packedLayout fun _ => 0xFF)
          [.add aFriend, .del 1] ∧
        Admitted (friendStep packedLayout) (FriendCall.Meets packedLayout)
          (friendDeinit packedLayout fun _ => 0xFF)
          [.add aFriend, .del 1]) := by
  rintro ⟨_, met⟩
  have meets := met [.add aFriend] (.del 1) [] rfl
  have notAtEnd := (FriendCall.meets_iff _).mp meets
  have stored := friendDeinit_add packedLayout (fun _ => 0xFF) aFriend
  have count := congrArg List.length stored
  rw [friends_length] at count
  have first := notAtEnd count.symm
  cases first

end Tp79Boot
