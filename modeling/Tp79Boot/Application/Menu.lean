import Tp79Boot.Application.State
import Tp79Boot.CString

/-!
# List menus

The keys of the group, member, friend and call log menus.  All four move the
selection with `application_select_change`, which takes a remainder by the size
of the list.
-/

namespace Tp79Boot

/-- What the list menus look at besides `app_device`. -/
structure MenuData where
  groupListSum : UInt16
  memberOnlineCnt : UInt16
  friendReadCnt : UInt8
  callLogReadCnt : UInt8
  singleCallFlag : UInt8
  memberListId : Nat → List UInt8
  userId : List UInt8

/-- `app_device`, and the sizes with which `application_select_change` has been
called. -/
structure MenuState where
  appDevice : AppDevice
  sums : List UInt16

namespace MenuState

abbrev menuSelect (menu : MenuState) : UInt16 :=
  menu.appDevice.menuSelect

def select (menu : MenuState) (menuSelect : UInt16) : MenuState :=
  { menu with appDevice := { menu.appDevice with menuSelect := menuSelect } }

def change (menu : MenuState) (sysTickCnt : UInt32) (state : AppStatus) :
    MenuState :=
  { menu with
    appDevice := applicationStateChange sysTickCnt menu.appDevice state }

end MenuState

/-- `application_select_change`.  The remainder by zero is undefined in C; the
value left by the model for it has no meaning. -/
def applicationSelectChange (menu : MenuState) (addSub : Bool)
    (cnt sum : UInt16) : MenuState :=
  let called := { menu with sums := menu.sums ++ [sum] }
  if addSub then
    called.select
      (UInt16.ofNat ((menu.menuSelect.toNat + cnt.toNat) % sum.toNat))
  else if cnt ≤ menu.menuSelect then called.select (menu.menuSelect - cnt)
  else called.select (sum - (cnt - menu.menuSelect))

/-- `key_value_num>0 && key_value_num < KEY_VALUE_STATUS_DOWN`. -/
def isListDigit (keyValueNum : UInt8) : Bool :=
  0 < keyValueNum && keyValueNum < keyValueStatusDown

def appMenuSetGourp (data : MenuData) (sysTickCnt : UInt32)
    (keyValue : KeyValue) (menu : MenuState) : MenuState :=
  let keyValueNum := appKeyvalueToNum keyValue
  if keyValue = keyFunUpDown ∨ keyValue = keyFunHightDown then
    applicationSelectChange menu false 1 data.groupListSum
  else if keyValue = keyFunDownDown ∨ keyValue = keyFunLowDown then
    applicationSelectChange menu true 1 data.groupListSum
  else if keyValue = keyFunLeftDown then menu.change sysTickCnt .menuSetMain
  else if keyValue = keyFunRightDown ∨ keyValue = keyFunOkDown ∨
      keyValue = keyFunPttUp then menu.change sysTickCnt .workingMain
  else if keyValue = keyFunJingDown then
    applicationSelectChange menu true 10 data.groupListSum
  else if isListDigit keyValueNum then
    if keyValueNum.toUInt16 ≤ data.groupListSum then
      menu.select (keyValueNum.toUInt16 - 1)
    else menu
  else menu

/-- The member menu once it is known that somebody is online. -/
def memberKeys (data : MenuData) (sysTickCnt : UInt32) (keyValue : KeyValue)
    (menu : MenuState) : MenuState :=
  let keyValueNum := appKeyvalueToNum keyValue
  if keyValue = keyFunPttUp ∧ 0 < data.memberOnlineCnt ∧
      data.singleCallFlag = 0x31 then
    if memcmpEq (data.memberListId (menu.menuSelect.toNat + 1)) 0 data.userId 4
    then menu
    else menu.change sysTickCnt .calling
  else if keyValue = keyFunRightDown then
    menu.change sysTickCnt .setSubmenu1_2_1
  else if keyValue = keyFunUpDown ∨ keyValue = keyFunHightDown then
    applicationSelectChange menu false 1 data.memberOnlineCnt
  else if keyValue = keyFunDownDown ∨ keyValue = keyFunLowDown then
    applicationSelectChange menu true 1 data.memberOnlineCnt
  else if keyValue = keyFunJingDown then
    if menu.menuSelect.toNat + 10 < data.memberOnlineCnt.toNat - 1 then
      applicationSelectChange menu true 10 data.memberOnlineCnt
    else menu
  else if isListDigit keyValueNum then
    if keyValueNum.toUInt16 ≤ data.memberOnlineCnt then
      menu.select (keyValueNum.toUInt16 - 1)
    else menu
  else menu

def appMenuSetMember (data : MenuData) (sysTickCnt : UInt32)
    (keyValue : KeyValue) (menu : MenuState) : MenuState :=
  let left :=
    if keyValue = keyFunLeftDown then menu.change sysTickCnt .menuSetMain
    else menu
  if 0 < data.memberOnlineCnt then memberKeys data sysTickCnt keyValue left
  else left

/-- Nothing sets `key_value_num` here, so its value is whatever was there.  The
count is a 32-bit number, from which one is subtracted without a test. -/
def appMenuSetFriend (data : MenuData) (sysTickCnt : UInt32)
    (keyValue : KeyValue) (keyValueNum : UInt8) (menu : MenuState) :
    MenuState :=
  if keyValue = keyFunLeftDown then menu.change sysTickCnt .menuSetMain
  else if keyValue = keyFunPttUp ∧ 0 < data.friendReadCnt ∧
      data.singleCallFlag = 0x31 then menu.change sysTickCnt .calling
  else if keyValue = keyFunRightDown ∧ 0 < data.friendReadCnt then
    menu.change sysTickCnt .setSubmenu1_3_1
  else if keyValue = keyFunUpDown ∨ keyValue = keyFunHightDown then
    applicationSelectChange menu false 1 data.friendReadCnt.toUInt16
  else if keyValue = keyFunDownDown ∨ keyValue = keyFunLowDown then
    applicationSelectChange menu true 1 data.friendReadCnt.toUInt16
  else if keyValue = keyFunJingDown then
    if menu.menuSelect.toUInt32 + 10 < data.friendReadCnt.toUInt32 - 1 then
      menu.select (menu.menuSelect + 10)
    else menu
  else if isListDigit keyValueNum then
    if keyValueNum ≤ data.friendReadCnt then
      menu.select (keyValueNum.toUInt16 - 1)
    else menu
  else menu

def appMenuSetLog (data : MenuData) (sysTickCnt : UInt32)
    (keyValue : KeyValue) (menu : MenuState) : MenuState :=
  let left :=
    if keyValue = keyFunLeftDown then menu.change sysTickCnt .menuSetMain
    else menu
  if keyValue = keyFunUpDown then
    applicationSelectChange left false 1 data.callLogReadCnt.toUInt16
  else if keyValue = keyFunDownDown then
    applicationSelectChange left true 1 data.callLogReadCnt.toUInt16
  else if keyValue = keyFunJingDown then
    if left.menuSelect.toNat + 10 < data.callLogReadCnt.toNat then
      left.select (left.menuSelect + 10)
    else left
  else if keyValue = keyFunRightDown ∧ 0 < data.callLogReadCnt then
    left.change sysTickCnt .setSubmenu1_4_1
  else left

end Tp79Boot
