import Tp79Boot.Application.MenuRange

/-!
# Runs through the menus

List menus are entered from other screens, always with the selection at zero,
and keys go to the menu that is open.  The sizes of the lists do not change
while a menu is open.
-/

namespace Tp79Boot

open EventRun

inductive ListMenu where
  | groups
  | members
  | friends
  | callLog
deriving DecidableEq, Repr

def ListMenu.status : ListMenu → AppStatus
  | .groups => .setSubmenu1_1
  | .members => .setSubmenu1_2
  | .friends => .setSubmenu1_3
  | .callLog => .setSubmenu1_4

/-- A list menu is entered, or a key is pressed.  The last value is the one
that the friend menu finds in its `key_value_num`. -/
inductive MenuEvent where
  | enter (sysTickCnt : UInt32) (list : ListMenu) (data : MenuData)
  | key (sysTickCnt : UInt32) (keyValue : KeyValue) (keyValueNum : UInt8)

structure MenuSession where
  data : MenuData
  menu : MenuState

/-- After `application_init`. -/
def MenuSession.start (data : MenuData) : MenuSession :=
  { data := data
    menu :=
      { appDevice :=
          { status := .normal
            menuSelect := 0
            menuLastSelect := 0
            changeTime := 0 }
        sums := [] } }

/-- The call through `app_fun_set_sunmenu1`, as far as it goes to a list
menu. -/
def listKey (data : MenuData) (sysTickCnt : UInt32) (keyValue : KeyValue)
    (keyValueNum : UInt8) (menu : MenuState) : MenuState :=
  match menu.appDevice.status with
  | .setSubmenu1_1 => appMenuSetGourp data sysTickCnt keyValue menu
  | .setSubmenu1_2 => appMenuSetMember data sysTickCnt keyValue menu
  | .setSubmenu1_3 =>
      appMenuSetFriend data sysTickCnt keyValue keyValueNum menu
  | .setSubmenu1_4 => appMenuSetLog data sysTickCnt keyValue menu
  | _ => menu

def menuStep (session : MenuSession) : MenuEvent → MenuSession
  | .enter sysTickCnt list data =>
      { data := data
        menu := session.menu.change sysTickCnt list.status }
  | .key sysTickCnt keyValue keyValueNum =>
      { session with
        menu :=
          if keyValue = keyValueNone then session.menu
          else listKey session.data sysTickCnt keyValue keyValueNum
            session.menu }

def MenuSession.Safe (session : MenuSession) : Prop :=
  MenuSafe session.data session.menu

/-- No key moves the selection of an empty list that is not tested for. -/
def Navigable (session : MenuSession) (event : MenuEvent) : Prop :=
  ∀ sysTickCnt keyValue keyValueNum,
    event = .key sysTickCnt keyValue keyValueNum →
    listSize session.data session.menu.appDevice.status = some 0 →
    keyValue ∉ movers session.menu.appDevice.status

section

variable {data : MenuData} {menu : MenuState} {size : Nat}
  {sysTickCnt : UInt32} {keyValue : KeyValue} {keyValueNum : UInt8}

theorem listSize_cases {status : AppStatus}
    (here : listSize data status = some size) :
    (status = .setSubmenu1_1 ∧ size = data.groupListSum.toNat) ∨
      (status = .setSubmenu1_2 ∧ size = data.memberOnlineCnt.toNat) ∨
      (status = .setSubmenu1_3 ∧ size = data.friendReadCnt.toNat) ∨
      (status = .setSubmenu1_4 ∧ size = data.callLogReadCnt.toNat) := by
  unfold listSize at here
  split at here
  · cases here
    exact .inl ⟨rfl, rfl⟩
  · cases here
    exact .inr (.inl ⟨rfl, rfl⟩)
  · cases here
    exact .inr (.inr (.inl ⟨rfl, rfl⟩))
  · cases here
    exact .inr (.inr (.inr ⟨rfl, rfl⟩))
  · cases here

theorem listKey_moved
    (here : listSize data menu.appDevice.status = some size)
    (usable : 0 < size ∨ keyValue ∉ movers menu.appDevice.status) :
    Moved size menu (listKey data sysTickCnt keyValue keyValueNum menu) := by
  unfold listKey
  rcases listSize_cases here with ⟨status, rfl⟩ | ⟨status, rfl⟩ |
    ⟨status, rfl⟩ | ⟨status, rfl⟩
  · rw [status] at usable ⊢
    exact appMenuSetGourp_moved usable
  · rw [status]
    exact appMenuSetMember_moved
  · rw [status] at usable ⊢
    exact appMenuSetFriend_moved usable
  · rw [status] at usable ⊢
    exact appMenuSetLog_moved usable

theorem listKey_elsewhere
    (elsewhere : listSize data menu.appDevice.status = none) :
    listKey data sysTickCnt keyValue keyValueNum menu = menu := by
  unfold listKey
  split
  next status =>
    rw [status] at elsewhere
    cases elsewhere
  next status =>
    rw [status] at elsewhere
    cases elsewhere
  next status =>
    rw [status] at elsewhere
    cases elsewhere
  next status =>
    rw [status] at elsewhere
    cases elsewhere
  next => rfl

private theorem unsafe_of_sum {next : MenuState} {sum : UInt16}
    (empty : sum = 0)
    (called : ∃ addSub cnt,
      next = applicationSelectChange menu addSub cnt sum) :
    ¬MenuSafe data next := by
  obtain ⟨addSub, cnt, rfl⟩ := called
  intro safe
  apply safe.divides
  rw [applicationSelectChange_sums, empty]
  exact List.mem_append_right _ List.mem_cons_self

private theorem stepKeys_select {sum : UInt16} {rest : MenuState}
    (mover : keyValue ∈
      [keyFunUpDown, keyFunHightDown, keyFunDownDown, keyFunLowDown]) :
    ∃ addSub cnt,
      (if keyValue = keyFunUpDown ∨ keyValue = keyFunHightDown then
        applicationSelectChange menu false 1 sum
      else if keyValue = keyFunDownDown ∨ keyValue = keyFunLowDown then
        applicationSelectChange menu true 1 sum
      else rest) = applicationSelectChange menu addSub cnt sum := by
  simp only [List.mem_cons, List.not_mem_nil, or_false] at mover
  rcases mover with rfl | rfl | rfl | rfl
  · rw [if_pos (.inl rfl)]
    exact ⟨_, _, rfl⟩
  · rw [if_pos (.inr rfl)]
    exact ⟨_, _, rfl⟩
  · rw [if_neg (by decide), if_pos (.inl rfl)]
    exact ⟨_, _, rfl⟩
  · rw [if_neg (by decide), if_pos (.inr rfl)]
    exact ⟨_, _, rfl⟩

private theorem stepKeys_of_mover
    (mover : keyValue ∈ movers .setSubmenu1_1)
    (other : keyValue ≠ keyFunJingDown) :
    keyValue ∈
      [keyFunUpDown, keyFunHightDown, keyFunDownDown, keyFunLowDown] := by
  simp only [movers, List.mem_cons, List.not_mem_nil, or_false] at mover ⊢
  rcases mover with up | hight | down | low | jing
  · exact .inl up
  · exact .inr (.inl hight)
  · exact .inr (.inr (.inl down))
  · exact .inr (.inr (.inr low))
  · exact absurd jing other

private theorem gourp_broken (empty : data.groupListSum = 0)
    (mover : keyValue ∈ movers .setSubmenu1_1) :
    ¬MenuSafe data (appMenuSetGourp data sysTickCnt keyValue menu) := by
  apply @unsafe_of_sum data menu _ _ empty
  unfold appMenuSetGourp
  by_cases jing : keyValue = keyFunJingDown
  · rw [jing, if_neg (by decide), if_neg (by decide), if_neg (by decide),
      if_neg (by decide), if_pos rfl]
    exact ⟨_, _, rfl⟩
  · exact stepKeys_select (stepKeys_of_mover mover jing)

private theorem friend_jumps (empty : data.friendReadCnt = 0)
    (first : menu.menuSelect = 0) :
    appMenuSetFriend data sysTickCnt keyFunJingDown keyValueNum menu =
      menu.select 10 := by
  have far : menu.menuSelect.toUInt32 + 10 <
      data.friendReadCnt.toUInt32 - 1 := by
    rw [empty, first]
    decide
  have ten : menu.menuSelect + 10 = 10 := by
    rw [first]
    rfl
  have notPtt : keyFunJingDown ≠ keyFunPttUp := by decide
  have notRight : keyFunJingDown ≠ keyFunRightDown := by decide
  unfold appMenuSetFriend
  rw [if_neg (by decide), if_neg (fun ptt => notPtt ptt.1),
    if_neg (fun right => notRight right.1), if_neg (by decide),
    if_neg (by decide), if_pos rfl, if_pos far, ten]

private theorem friend_selects
    (mover : keyValue ∈
      [keyFunUpDown, keyFunHightDown, keyFunDownDown, keyFunLowDown]) :
    ∃ addSub cnt,
      appMenuSetFriend data sysTickCnt keyValue keyValueNum menu =
        applicationSelectChange menu addSub cnt
          data.friendReadCnt.toUInt16 := by
  have notPtt : keyValue ≠ keyFunPttUp := by
    rintro rfl
    exact absurd mover (by decide)
  have notRight : keyValue ≠ keyFunRightDown := by
    rintro rfl
    exact absurd mover (by decide)
  have notLeft : keyValue ≠ keyFunLeftDown := by
    rintro rfl
    exact absurd mover (by decide)
  unfold appMenuSetFriend
  rw [if_neg notLeft, if_neg (fun ptt => notPtt ptt.1),
    if_neg (fun right => notRight right.1)]
  exact stepKeys_select mover

private theorem friend_broken (empty : data.friendReadCnt = 0)
    (here : menu.appDevice.status = .setSubmenu1_3)
    (mover : keyValue ∈ movers .setSubmenu1_3) (first : menu.menuSelect = 0) :
    ¬MenuSafe data
      (appMenuSetFriend data sysTickCnt keyValue keyValueNum menu) := by
  by_cases jing : keyValue = keyFunJingDown
  · rw [jing, friend_jumps empty first]
    intro safe
    have size : listSize data (menu.select 10).appDevice.status = some 0 := by
      have same : (menu.select 10).appDevice.status = .setSubmenu1_3 := here
      rw [same, listSize, empty]
      rfl
    rcases safe.inRange 0 size with below | ⟨_, zero⟩
    · exact absurd below (Nat.not_lt_zero _)
    · cases zero
  · have noSum : data.friendReadCnt.toUInt16 = 0 := by
      rw [empty]
      rfl
    exact unsafe_of_sum noSum
      (friend_selects (stepKeys_of_mover mover jing))

private theorem log_broken (empty : data.callLogReadCnt = 0)
    (mover : keyValue ∈ movers .setSubmenu1_4) :
    ¬MenuSafe data (appMenuSetLog data sysTickCnt keyValue menu) := by
  have noSum : data.callLogReadCnt.toUInt16 = 0 := by
    rw [empty]
    rfl
  apply @unsafe_of_sum data menu _ _ noSum
  unfold appMenuSetLog
  simp only [movers, List.mem_cons, List.not_mem_nil, or_false] at mover
  rcases mover with rfl | rfl
  · rw [if_pos rfl, if_neg (by decide)]
    exact ⟨_, _, rfl⟩
  · rw [if_neg (by decide), if_pos rfl, if_neg (by decide)]
    exact ⟨_, _, rfl⟩

theorem listKey_broken (here : listSize data menu.appDevice.status = some 0)
    (mover : keyValue ∈ movers menu.appDevice.status)
    (safe : MenuSafe data menu) :
    ¬MenuSafe data (listKey data sysTickCnt keyValue keyValueNum menu) := by
  have first : menu.menuSelect = 0 := by
    rcases safe.inRange 0 here with below | ⟨_, zero⟩
    · exact absurd below (Nat.not_lt_zero _)
    · exact zero
  unfold listKey
  rcases listSize_cases here with ⟨status, size⟩ | ⟨status, size⟩ |
    ⟨status, size⟩ | ⟨status, size⟩
  · rw [status] at mover ⊢
    exact gourp_broken (UInt16.toNat_inj.mp size.symm) mover
  · rw [status] at mover
    cases mover
  · rw [status] at mover
    rw [status]
    exact friend_broken (UInt8.toNat_inj.mp size.symm) status mover first
  · rw [status] at mover ⊢
    exact log_broken (UInt8.toNat_inj.mp size.symm) mover

end

theorem start_menuSafe (data : MenuData) : (MenuSession.start data).Safe := by
  refine ⟨List.not_mem_nil, ?_⟩
  intro size found
  cases found

theorem ListMenu.entered_safe (list : ListMenu) (data : MenuData)
    {menu : MenuState} {sysTickCnt : UInt32} (divides : 0 ∉ menu.sums) :
    MenuSafe data (menu.change sysTickCnt list.status) := by
  refine ⟨divides, ?_⟩
  intro size _
  rcases Nat.eq_zero_or_pos size with empty | some_
  · exact .inr ⟨empty, rfl⟩
  · exact .inl some_

theorem menuStep_safe {session : MenuSession} {event : MenuEvent}
    (safe : session.Safe) (navigable : Navigable session event) :
    (menuStep session event).Safe := by
  cases event with
  | enter sysTickCnt list data => exact list.entered_safe data safe.divides
  | key sysTickCnt keyValue keyValueNum =>
      unfold MenuSession.Safe menuStep
      simp only
      split
      · exact safe
      · cases here : listSize session.data session.menu.appDevice.status with
        | none =>
            rw [listKey_elsewhere here]
            exact safe
        | some size =>
            have usable : 0 < size ∨
                keyValue ∉ movers session.menu.appDevice.status := by
              rcases Nat.eq_zero_or_pos size with rfl | some_
              · exact .inr (navigable _ _ _ rfl here)
              · exact .inl some_
            exact (listKey_moved here usable).safe here safe

theorem menuStep_broken {session : MenuSession} {event : MenuEvent}
    (safe : session.Safe) (refused : ¬Navigable session event) :
    ¬(menuStep session event).Safe := by
  unfold Navigable at refused
  push Not at refused
  obtain ⟨sysTickCnt, keyValue, keyValueNum, rfl, here, mover⟩ := refused
  have pressed : keyValue ≠ keyValueNone := by
    rintro rfl
    revert mover
    rcases listSize_cases here with ⟨status, _⟩ | ⟨status, _⟩ |
      ⟨status, _⟩ | ⟨status, _⟩
    all_goals rw [status]; decide
  unfold MenuSession.Safe menuStep
  simp only [if_neg pressed]
  exact listKey_broken here mover safe

/-- Along a run through the menus, the selection stays in range and nothing is
divided by zero exactly when no key moves the selection of an empty list that
its menu does not test for. -/
theorem menu_safe_iff (data : MenuData) (events : List MenuEvent) :
    Always menuStep MenuSession.Safe (MenuSession.start data) events ↔
      Admitted menuStep Navigable (MenuSession.start data) events :=
  always_iff_admitted (start_menuSafe data) (fun _ safe => safe)
    (fun _ _ => menuStep_safe) (fun _ _ => menuStep_broken) events

/-- A radio without groups, members, friends and calls. -/
def emptyMenuData : MenuData :=
  { groupListSum := 0
    memberOnlineCnt := 0
    friendReadCnt := 0
    callLogReadCnt := 0
    singleCallFlag := 0x31
    memberListId := fun _ => []
    userId := [] }

/-- The group menu is opened, and the down key pressed. -/
theorem menu_safe_emptyGroups :
    ¬∀ (data : MenuData) (events : List MenuEvent),
      Always menuStep MenuSession.Safe (MenuSession.start data) events := by
  intro always
  have safe := always emptyMenuData
    [.enter 0 .groups emptyMenuData, .key 0 keyFunDownDown 0] _ []
    (List.append_nil _).symm
  exact absurd safe.divides (by decide)

end Tp79Boot
