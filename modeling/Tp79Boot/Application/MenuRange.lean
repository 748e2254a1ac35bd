import Tp79Boot.Application.Menu
import Tp79Boot.Lib.EventRun

/-!
# Selections in range

As long as the list of the open menu has an entry, every key leaves the
selection on one.  Only the member menu tests for an empty list first; in the
other three a key that moves the selection divides by zero, or selects the
eleventh entry of nothing.
-/

namespace Tp79Boot

open EventRun

/-- The size of the list that is open, if one of the four is. -/
def listSize (data : MenuData) (status : AppStatus) : Option Nat :=
  match status with
  | .setSubmenu1_1 => some data.groupListSum.toNat
  | .setSubmenu1_2 => some data.memberOnlineCnt.toNat
  | .setSubmenu1_3 => some data.friendReadCnt.toNat
  | .setSubmenu1_4 => some data.callLogReadCnt.toNat
  | _ => none

/-- The selection is an entry of the list, or zero when it has none. -/
def InList (size : Nat) (menuSelect : UInt16) : Prop :=
  menuSelect.toNat < size ∨ (size = 0 ∧ menuSelect = 0)

/-- No remainder by zero has been taken, and the selection is in range. -/
structure MenuSafe (data : MenuData) (menu : MenuState) : Prop where
  divides : 0 ∉ menu.sums
  inRange : ∀ size, listSize data menu.appDevice.status = some size →
    InList size menu.menuSelect

/-- The keys that move the selection without a test for an empty list. -/
def movers (status : AppStatus) : List KeyValue :=
  match status with
  | .setSubmenu1_1 =>
      [keyFunUpDown, keyFunHightDown, keyFunDownDown, keyFunLowDown,
        keyFunJingDown]
  | .setSubmenu1_3 =>
      [keyFunUpDown, keyFunHightDown, keyFunDownDown, keyFunLowDown,
        keyFunJingDown]
  | .setSubmenu1_4 => [keyFunUpDown, keyFunDownDown]
  | _ => []

/-- The ways to handle a key that suit a list of some size. -/
inductive Moved (size : Nat) (menu : MenuState) : MenuState → Prop where
  | stays : Moved size menu menu
  | leaves (sysTickCnt : UInt32) (state : AppStatus) :
      (∀ data, listSize data state = none) →
      Moved size menu (menu.change sysTickCnt state)
  | up (sum : UInt16) : sum.toNat = size → 0 < size →
      Moved size menu (applicationSelectChange menu false 1 sum)
  | down (cnt sum : UInt16) : sum.toNat = size → 0 < size →
      Moved size menu (applicationSelectChange menu true cnt sum)
  | picks (menuSelect : UInt16) : menuSelect.toNat < size →
      Moved size menu (menu.select menuSelect)

section

variable {data : MenuData} {menu next : MenuState} {size : Nat}

theorem applicationSelectChange_sums (addSub : Bool) (cnt sum : UInt16) :
    (applicationSelectChange menu addSub cnt sum).sums = menu.sums ++ [sum] := by
  unfold applicationSelectChange
  split
  · rfl
  · split
    · rfl
    · rfl

theorem applicationSelectChange_status (addSub : Bool) (cnt sum : UInt16) :
    (applicationSelectChange menu addSub cnt sum).appDevice.status =
      menu.appDevice.status := by
  unfold applicationSelectChange
  split
  · rfl
  · split
    · rfl
    · rfl

private theorem stepUp_lt {menuSelect sum : UInt16} (some_ : 0 < sum.toNat)
    (below : menuSelect.toNat < sum.toNat) :
    (if 1 ≤ menuSelect then menuSelect - 1
      else sum - (1 - menuSelect)).toNat < sum.toNat := by
  split
  next one =>
    rw [UInt16.toNat_sub_of_le _ _ one]
    exact Nat.lt_of_le_of_lt (Nat.sub_le _ _) below
  next first =>
    have lower : ¬1 ≤ menuSelect.toNat := first
    have zero : menuSelect = 0 := by
      apply UInt16.toNat_inj.mp
      exact Nat.lt_one_iff.mp (Nat.lt_of_not_le lower)
    have whole : (1 : UInt16) - 0 = 1 := rfl
    rw [zero, whole, UInt16.toNat_sub_of_le _ _ some_]
    exact Nat.sub_lt some_ Nat.one_pos

theorem up_inList {sum : UInt16} (some_ : 0 < sum.toNat)
    (inList : InList sum.toNat menu.menuSelect) :
    (applicationSelectChange menu false 1 sum).menuSelect.toNat <
      sum.toNat := by
  have below : menu.menuSelect.toNat < sum.toNat := by
    rcases inList with below | ⟨empty, _⟩
    · exact below
    · exact absurd empty (Nat.ne_of_gt some_)
  have value : (applicationSelectChange menu false 1 sum).menuSelect =
      if 1 ≤ menu.menuSelect then menu.menuSelect - 1
        else sum - (1 - menu.menuSelect) := by
    unfold applicationSelectChange
    rw [if_neg (by decide)]
    split
    · rfl
    · rfl
  rw [value]
  exact stepUp_lt some_ below

theorem down_inList {cnt sum : UInt16} (some_ : 0 < sum.toNat) :
    (applicationSelectChange menu true cnt sum).menuSelect.toNat <
      sum.toNat := by
  have below := Nat.mod_lt (menu.menuSelect.toNat + cnt.toNat) some_
  have fits : (menu.menuSelect.toNat + cnt.toNat) % sum.toNat <
      UInt16.size := Nat.lt_trans below sum.toNat_lt
  have value : (applicationSelectChange menu true cnt sum).menuSelect =
      UInt16.ofNat
        ((menu.menuSelect.toNat + cnt.toNat) % sum.toNat) := rfl
  rw [value, UInt16.toNat_ofNat_of_lt' fits]
  exact below

/-- A change of the selection by a sum that is not zero, to an entry of the
list. -/
private theorem MenuSafe.change {addSub : Bool} {cnt sum : UInt16}
    (safe : MenuSafe data menu)
    (here : listSize data menu.appDevice.status = some sum.toNat)
    (some_ : 0 < sum.toNat)
    (below : (applicationSelectChange menu addSub cnt sum).menuSelect.toNat <
      sum.toNat) :
    MenuSafe data (applicationSelectChange menu addSub cnt sum) := by
  constructor
  · rw [applicationSelectChange_sums]
    intro member
    rcases List.mem_append.mp member with earlier | last
    · exact safe.divides earlier
    · rw [← List.mem_singleton.mp last] at some_
      exact absurd some_ (Nat.lt_irrefl 0)
  · intro other found
    rw [applicationSelectChange_status, here] at found
    cases found
    exact .inl below

/-- Handling a key in a suitable way keeps the menu safe. -/
theorem Moved.safe (moved : Moved size menu next)
    (here : listSize data menu.appDevice.status = some size)
    (safe : MenuSafe data menu) : MenuSafe data next := by
  have inList := safe.inRange size here
  cases moved with
  | stays => exact safe
  | leaves sysTickCnt state noList =>
      refine ⟨safe.divides, ?_⟩
      intro other found
      cases (noList data).symm.trans found
  | up sum same some_ =>
      subst same
      exact safe.change here some_ (up_inList some_ inList)
  | down cnt sum same some_ =>
      subst same
      exact safe.change here some_ (down_inList some_)
  | picks menuSelect below =>
      refine ⟨safe.divides, ?_⟩
      intro other found
      cases here.symm.trans found
      exact .inl below

theorem Moved.branch {condition : Prop} [Decidable condition]
    {taken other : MenuState} (yes : condition → Moved size menu taken)
    (no : ¬ condition → Moved size menu other) :
    Moved size menu (if condition then taken else other) := by
  split
  next holds => exact yes holds
  next fails => exact no fails

private theorem digit_lt {keyValueNum : UInt8} {sum : UInt16}
    (digit : isListDigit keyValueNum = true)
    (within : keyValueNum.toUInt16 ≤ sum) :
    (keyValueNum.toUInt16 - 1).toNat < sum.toNat := by
  have positive : 0 < keyValueNum := by
    simp only [isListDigit, Bool.and_eq_true, decide_eq_true_eq] at digit
    exact digit.1
  have one : (1 : UInt16) ≤ keyValueNum.toUInt16 := by
    rw [UInt16.le_iff_toNat_le, UInt8.toNat_toUInt16]
    exact positive
  have upper : keyValueNum.toUInt16.toNat ≤ sum.toNat := within
  have lower : 1 ≤ keyValueNum.toUInt16.toNat := one
  rw [UInt16.toNat_sub_of_le _ _ one]
  have step : (1 : UInt16).toNat = 1 := rfl
  omega

variable {sysTickCnt : UInt32} {keyValue : KeyValue} {keyValueNum : UInt8}

theorem appMenuSetGourp_moved (usable : 0 < data.groupListSum.toNat ∨
      keyValue ∉ movers .setSubmenu1_1) :
    Moved data.groupListSum.toNat menu
      (appMenuSetGourp data sysTickCnt keyValue menu) := by
  have used (mover : keyValue ∈ movers .setSubmenu1_1) :
      0 < data.groupListSum.toNat :=
    usable.resolve_right fun absent => absent mover
  unfold appMenuSetGourp
  apply Moved.branch
  · intro up
    apply Moved.up _ rfl (used _)
    rcases up with rfl | rfl
    · decide
    · decide
  intro _
  apply Moved.branch
  · intro down
    apply Moved.down _ _ rfl (used _)
    rcases down with rfl | rfl
    · decide
    · decide
  intro _
  apply Moved.branch
  · intro _
    exact .leaves _ _ (fun _ => rfl)
  intro _
  apply Moved.branch
  · intro _
    exact .leaves _ _ (fun _ => rfl)
  intro _
  apply Moved.branch
  · intro jing
    apply Moved.down _ _ rfl (used _)
    rw [jing]
    decide
  intro _
  apply Moved.branch
  · intro digit
    apply Moved.branch
    · exact fun within => .picks _ (digit_lt digit within)
    · exact fun _ => .stays
  · exact fun _ => .stays

theorem memberKeys_moved (some_ : 0 < data.memberOnlineCnt.toNat) :
    Moved data.memberOnlineCnt.toNat menu
      (memberKeys data sysTickCnt keyValue menu) := by
  unfold memberKeys
  apply Moved.branch
  · intro _
    apply Moved.branch
    · exact fun _ => .stays
    · exact fun _ => .leaves _ _ (fun _ => rfl)
  intro _
  apply Moved.branch
  · intro _
    exact .leaves _ _ (fun _ => rfl)
  intro _
  apply Moved.branch
  · intro _
    exact .up _ rfl some_
  intro _
  apply Moved.branch
  · intro _
    exact .down _ _ rfl some_
  intro _
  apply Moved.branch
  · intro _
    apply Moved.branch
    · exact fun _ => .down _ _ rfl some_
    · exact fun _ => .stays
  intro _
  apply Moved.branch
  · intro digit
    apply Moved.branch
    · exact fun within => .picks _ (digit_lt digit within)
    · exact fun _ => .stays
  · exact fun _ => .stays

theorem memberKeys_left :
    memberKeys data sysTickCnt keyFunLeftDown menu = menu := by
  have notPtt : keyFunLeftDown ≠ keyFunPttUp := by decide
  unfold memberKeys
  rw [if_neg (fun ptt => notPtt ptt.1), if_neg (by decide), if_neg (by decide),
    if_neg (by decide), if_neg (by decide), if_neg (by decide)]

/-- The member menu tests for an empty list before all else. -/
theorem appMenuSetMember_moved :
    Moved data.memberOnlineCnt.toNat menu
      (appMenuSetMember data sysTickCnt keyValue menu) := by
  unfold appMenuSetMember
  simp only
  by_cases left : keyValue = keyFunLeftDown
  · rw [left, memberKeys_left]
    split
    · exact .leaves _ _ (fun _ => rfl)
    · exact .leaves _ _ (fun _ => rfl)
  · rw [if_neg left]
    split
    next some_ => exact memberKeys_moved some_
    next => exact .stays

private theorem friendDigit_lt (digit : isListDigit keyValueNum = true)
    {cnt : UInt8} (within : keyValueNum ≤ cnt) :
    (keyValueNum.toUInt16 - 1).toNat < cnt.toNat := by
  have wide : keyValueNum.toUInt16 ≤ cnt.toUInt16 := by
    rw [UInt16.le_iff_toNat_le, UInt8.toNat_toUInt16, UInt8.toNat_toUInt16]
    exact within
  have below := digit_lt digit wide
  rwa [UInt8.toNat_toUInt16] at below

private theorem friendJump_lt {menuSelect : UInt16} {cnt : UInt8}
    (some_ : 0 < cnt.toNat)
    (inside : menuSelect.toUInt32 + 10 < cnt.toUInt32 - 1) :
    (menuSelect + 10).toNat < cnt.toNat := by
  have selectBelow := menuSelect.toNat_lt
  have cntBelow := cnt.toNat_lt
  have one : (1 : UInt32) ≤ cnt.toUInt32 := by
    rw [UInt32.le_iff_toNat_le, UInt8.toNat_toUInt32]
    exact some_
  rw [UInt32.lt_iff_toNat_lt, UInt32.toNat_sub_of_le _ _ one,
    UInt32.toNat_add, UInt16.toNat_toUInt32, UInt8.toNat_toUInt32] at inside
  rw [UInt16.toNat_add]
  have ten : (10 : UInt32).toNat = 10 := rfl
  have tenShort : (10 : UInt16).toNat = 10 := rfl
  have oneWide : (1 : UInt32).toNat = 1 := rfl
  omega

theorem appMenuSetFriend_moved (usable : 0 < data.friendReadCnt.toNat ∨
      keyValue ∉ movers .setSubmenu1_3) :
    Moved data.friendReadCnt.toNat menu
      (appMenuSetFriend data sysTickCnt keyValue keyValueNum menu) := by
  have used (mover : keyValue ∈ movers .setSubmenu1_3) :
      0 < data.friendReadCnt.toNat :=
    usable.resolve_right fun absent => absent mover
  have wide : data.friendReadCnt.toUInt16.toNat = data.friendReadCnt.toNat :=
    UInt8.toNat_toUInt16 _
  unfold appMenuSetFriend
  apply Moved.branch
  · intro _
    exact .leaves _ _ (fun _ => rfl)
  intro _
  apply Moved.branch
  · intro _
    exact .leaves _ _ (fun _ => rfl)
  intro _
  apply Moved.branch
  · intro _
    exact .leaves _ _ (fun _ => rfl)
  intro _
  apply Moved.branch
  · intro up
    apply Moved.up _ wide (used _)
    rcases up with rfl | rfl
    · decide
    · decide
  intro _
  apply Moved.branch
  · intro down
    apply Moved.down _ _ wide (used _)
    rcases down with rfl | rfl
    · decide
    · decide
  intro _
  apply Moved.branch
  · intro jing
    apply Moved.branch
    · intro inside
      apply Moved.picks _ (friendJump_lt (used _) inside)
      rw [jing]
      decide
    · exact fun _ => .stays
  intro _
  apply Moved.branch
  · intro digit
    apply Moved.branch
    · exact fun within => .picks _ (friendDigit_lt digit within)
    · exact fun _ => .stays
  · exact fun _ => .stays

private theorem logJump_lt {menuSelect : UInt16} {cnt : UInt8}
    (inside : menuSelect.toNat + 10 < cnt.toNat) :
    (menuSelect + 10).toNat < cnt.toNat := by
  have cntBelow := cnt.toNat_lt
  have ten : (10 : UInt16).toNat = 10 := rfl
  rw [UInt16.toNat_add]
  omega

theorem appMenuSetLog_moved (usable : 0 < data.callLogReadCnt.toNat ∨
      keyValue ∉ movers .setSubmenu1_4) :
    Moved data.callLogReadCnt.toNat menu
      (appMenuSetLog data sysTickCnt keyValue menu) := by
  have used (mover : keyValue ∈ movers .setSubmenu1_4) :
      0 < data.callLogReadCnt.toNat :=
    usable.resolve_right fun absent => absent mover
  have wide : data.callLogReadCnt.toUInt16.toNat =
      data.callLogReadCnt.toNat := UInt8.toNat_toUInt16 _
  unfold appMenuSetLog
  simp only
  by_cases left : keyValue = keyFunLeftDown
  · have notRight : keyFunLeftDown ≠ keyFunRightDown := by decide
    rw [left, if_pos rfl, if_neg (by decide), if_neg (by decide),
      if_neg (by decide), if_neg (fun right => notRight right.1)]
    exact .leaves _ _ (fun _ => rfl)
  · rw [if_neg left]
    apply Moved.branch
    · intro up
      apply Moved.up _ wide (used _)
      rw [up]
      decide
    intro _
    apply Moved.branch
    · intro down
      apply Moved.down _ _ wide (used _)
      rw [down]
      decide
    intro _
    apply Moved.branch
    · intro _
      apply Moved.branch
      · exact fun inside => .picks _ (logJump_lt inside)
      · exact fun _ => .stays
    intro _
    apply Moved.branch
    · exact fun _ => .leaves _ _ (fun _ => rfl)
    · exact fun _ => .stays

end

end Tp79Boot
