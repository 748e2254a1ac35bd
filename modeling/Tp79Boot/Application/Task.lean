import Tp79Boot.Application.Battery
import Tp79Boot.Application.MenuRun
import Tp79Boot.Application.Talk

/-!
# The application task

`application_task`: what the open screen does with a key, and after it the
parts that run on every screen.  Lights, display and voice are left out, and so
are the records of the friend list and of the call log.
-/

namespace Tp79Boot

/-- `poc_call_status_t`, in its order. -/
inductive PocCallStatus where
  | callNomal
  | calling
  | callSuccess
  | callFailed
  | callExit
  | beCalled
deriving DecidableEq, Repr

/-- What the application reads of `poc_para`. -/
structure PocPara where
  status : PocStatus
  callStatus : PocCallStatus
  talkerId : UInt8
  talkerPriority : UInt8
  groupListSum : UInt16
  memberOnlineCnt : UInt16
  memberListId : Nat → List UInt8
  userId : List UInt8

/-- What the application reads of the configuration. -/
structure AppCfg where
  lcdSleepTimer : UInt32
  keySound : UInt8
  pttSound : UInt8
  singleCallFlag : UInt8
deriving DecidableEq

structure Application where
  menu : MenuState
  pocPara : PocPara
  cfg : AppCfg
  talk : PttTalk
  battery : Battery

/-- What one call of the task finds.  `keyValueNum` is the value of a variable
that nothing sets. -/
structure AppCall where
  keyValue : KeyValue
  keyValueNum : UInt8
  sysTickCnt : UInt32
  adcValue : UInt16
  friendReadCnt : UInt8
  callLogReadCnt : UInt8

/-- Functions of other modules, by what they do to the variables above.  A
friend or a call log entry is called by its place. -/
structure PocCalls where
  pocMemberRefresh : PocPara → PocPara
  pocRefreshGroup : PocPara → PocPara
  pocGroupSetNew : UInt16 → PocPara → PocPara
  pocCallMember : UInt16 → PocPara → PocPara
  pocCallFriend : UInt16 → PocPara → PocPara
  pocCallLogged : UInt16 → PocPara → PocPara
  pocCallClr : PocPara → PocPara
  pocShutDown : PocPara → PocPara
  pocTalk : TalkAction → PocPara → PocPara
  deviceConfigSetDefault : AppCfg → AppCfg
  writeCodeTask : AppCfg → AppCfg

namespace Application

def status (app : Application) : AppStatus :=
  app.menu.appDevice.status

def setStatus (app : Application) (state : AppStatus) : Application :=
  { app with
    menu :=
      { app.menu with
        appDevice := { app.menu.appDevice with status := state } } }

def change (app : Application) (sysTickCnt : UInt32) (state : AppStatus) :
    Application :=
  { app with menu := app.menu.change sysTickCnt state }

/-- `app_state_get_change_timer`. -/
def changeTimer (app : Application) (sysTickCnt : UInt32) : UInt32 :=
  sysTickCnt - app.menu.appDevice.changeTime

def select (app : Application) (addSub : Bool) (cnt sum : UInt16) :
    Application :=
  { app with menu := applicationSelectChange app.menu addSub cnt sum }

def radio (app : Application) (effect : PocPara → PocPara) : Application :=
  { app with pocPara := effect app.pocPara }

def configure (app : Application) (effect : AppCfg → AppCfg) : Application :=
  { app with cfg := effect app.cfg }

/-- Only a radio that is logged in does it; another one says so. -/
def online (app : Application) (effect : Application → Application) :
    Application :=
  if app.pocPara.status = .statusLandSuccessed then effect app else app

def menuData (app : Application) (call : AppCall) : MenuData :=
  { groupListSum := app.pocPara.groupListSum
    memberOnlineCnt := app.pocPara.memberOnlineCnt
    friendReadCnt := call.friendReadCnt
    callLogReadCnt := call.callLogReadCnt
    singleCallFlag := app.cfg.singleCallFlag
    memberListId := app.pocPara.memberListId
    userId := app.pocPara.userId }

end Application

section

variable (calls : PocCalls) (call : AppCall) (app : Application)

/-- The member list is asked for, and the screen waits for it. -/
def seachMembers : Application :=
  (app.radio calls.pocMemberRefresh).change call.sysTickCnt
    .setSubmenu1_2Seaching

def appWorkingLocked : Application :=
  if call.keyValue = keyFunLeftDown then
    app.change call.sysTickCnt .workingUnlocking
  else if call.keyValue = keyFunLowDown3S then
    app.change call.sysTickCnt .setSubmenu1_3
  else if call.keyValue = keyFunHightDown3S then
    app.online (seachMembers calls call)
  else if call.keyValue = keyFunHightUp then
    app.online fun app => app.change call.sysTickCnt .setSubmenu1_1
  else app

def appWorkingMain : Application :=
  if call.keyValue = keyFunJingDown then
    app.change call.sysTickCnt .workingLocked
  else if call.keyValue = keyFunHightDown3S then
    app.online (seachMembers calls call)
  else if call.keyValue = keyFunLeftDown then
    app.change call.sysTickCnt .menuSetMain
  else if call.keyValue = keyFunLowDown3S then
    app.change call.sysTickCnt .setSubmenu1_3
  else if call.keyValue = keyFunHightUp then
    app.online fun app => app.change call.sysTickCnt .setSubmenu1_1
  else app

/-- The icon that is selected in the main menu is opened. -/
def appMenuMainOpen : Application :=
  if app.menu.menuSelect = 0 then
    app.online fun app =>
      (app.radio calls.pocRefreshGroup).change call.sysTickCnt .setSubmenu1_1
  else if app.menu.menuSelect = 1 then app.online (seachMembers calls call)
  else if app.menu.menuSelect = 3 then
    app.change call.sysTickCnt .setSubmenu1_4
  else if app.menu.menuSelect = 2 then
    app.change call.sysTickCnt .setSubmenu1_3
  else if app.menu.menuSelect = 4 then
    app.change call.sysTickCnt .setSubmenu1_5
  else if app.menu.menuSelect = 5 then
    app.change call.sysTickCnt .setSubmenu1_6
  else app

def appMenuMain : Application :=
  if call.keyValue = keyFunLeftDown then
    app.change call.sysTickCnt .workingMain
  else if call.keyValue = keyFunUpDown then app.select false 1 6
  else if call.keyValue = keyFunDownDown then app.select true 1 6
  else if call.keyValue = keyFunLowDown3S then
    app.change call.sysTickCnt .setSubmenu1_3
  else if call.keyValue = keyFunHightDown3S then
    app.online (seachMembers calls call)
  else if call.keyValue = keyFunHightUp then
    app.online fun app => app.change call.sysTickCnt .setSubmenu1_1
  else if call.keyValue = keyFunJingDown then
    app.change call.sysTickCnt .workingLocked
  else if call.keyValue = keyFunRightDown ∨ call.keyValue = keyFunOkDown then
    appMenuMainOpen calls call app
  else app

def appMenuSetGps : Application :=
  if call.keyValue = keyFunLeftDown then
    app.change call.sysTickCnt .menuSetMain
  else app

def appMenuSetSetup : Application :=
  if call.keyValue = keyFunUpDown then app.select false 1 5
  else if call.keyValue = keyFunDownDown then app.select true 1 5
  else if call.keyValue = keyFunLeftDown then
    app.change call.sysTickCnt .menuSetMain
  else if call.keyValue = keyFunOkDown ∨ call.keyValue = keyFunRightDown then
    if app.menu.menuSelect = 0 then app.change call.sysTickCnt .setSubmenu1_6_1
    else if app.menu.menuSelect = 1 then
      app.change call.sysTickCnt .setSubmenu1_6_2
    else if app.menu.menuSelect = 2 then
      app.change call.sysTickCnt .setSubmenu1_6_3
    else if app.menu.menuSelect = 3 then
      app.change call.sysTickCnt .setSubmenu1_6_4
    else if app.menu.menuSelect = 4 then
      app.change call.sysTickCnt .setSubmenu1_6_5
    else app
  else app

/-- The call through `app_fun_set_sunmenu1`.  A list menu that leaves for the
main screen has chosen a group, and one that leaves for the call screen calls
the selected entry. -/
def appFunSetSunmenu1 : Application :=
  let listed :=
    { app with
      menu := listKey (app.menuData call) call.sysTickCnt call.keyValue
        call.keyValueNum app.menu }
  match app.status with
  | .setSubmenu1_1 =>
      if listed.status = .workingMain then
        listed.radio (calls.pocGroupSetNew (app.menu.menuSelect + 1))
      else listed
  | .setSubmenu1_2 =>
      if listed.status = .calling then
        listed.radio (calls.pocCallMember (app.menu.menuSelect + 1))
      else listed
  | .setSubmenu1_3 =>
      if listed.status = .calling then
        listed.radio (calls.pocCallFriend app.menu.menuSelect)
      else listed
  | .setSubmenu1_4 => listed
  | .setSubmenu1_5 => appMenuSetGps call app
  | .setSubmenu1_6 => appMenuSetSetup call app
  | _ => app

/-- A menu of a few choices: back, up, down, and what the other keys do. -/
def choiceKeys (back : AppStatus) (sum : UInt16)
    (confirm : Application → Application) : Application :=
  if call.keyValue = keyFunLeftDown then app.change call.sysTickCnt back
  else if call.keyValue = keyFunUpDown then app.select false 1 sum
  else if call.keyValue = keyFunDownDown then app.select true 1 sum
  else if call.keyValue = keyFunOkDown ∨ call.keyValue = keyFunRightDown then
    confirm app
  else app

def submenu1_2_1 : Application :=
  choiceKeys call app .setSubmenu1_2 3 fun app =>
    let place := app.menu.appDevice.menuLastSelect + 1
    if app.cfg.singleCallFlag ≠ 0x31 then app
    else if app.menu.menuSelect = 0 then
      if memcmpEq (app.pocPara.memberListId place.toNat) 0 app.pocPara.userId 4
      then app
      else
        (app.radio (calls.pocCallMember place)).change call.sysTickCnt .calling
    else if app.menu.menuSelect = 1 ∨ app.menu.menuSelect = 2 then
      app.change call.sysTickCnt .setSubmenu1_2
    else app

/-- The menus of one friend and of one entry of the call log. -/
def callChoice (back : AppStatus) (dial : PocPara → PocPara)
    (app : Application) : Application :=
  if app.cfg.singleCallFlag ≠ 0x31 then app
  else if app.menu.menuSelect = 0 then
    if app.pocPara.status = .statusLandSuccessed then
      (app.radio dial).change call.sysTickCnt .calling
    else app.change call.sysTickCnt back
  else if app.menu.menuSelect = 1 ∨ app.menu.menuSelect = 2 then
    app.change call.sysTickCnt back
  else app

def submenu1_3_1 : Application :=
  choiceKeys call app .setSubmenu1_3 3
    (callChoice call .setSubmenu1_3
      (calls.pocCallFriend app.menu.appDevice.menuLastSelect))

def submenu1_4_1 : Application :=
  choiceKeys call app .setSubmenu1_4 3
    (callChoice call .setSubmenu1_4
      (calls.pocCallLogged (app.menu.appDevice.menuLastSelect + 1)))

def submenu1_6_1 : Application :=
  choiceKeys call app .setSubmenu1_6 4 fun app =>
    let chosen := app.configure fun cfg =>
      if app.menu.menuSelect = 0 then { cfg with lcdSleepTimer := 30000 }
      else if app.menu.menuSelect = 1 then { cfg with lcdSleepTimer := 60000 }
      else if app.menu.menuSelect = 2 then
        { cfg with lcdSleepTimer := 0xFFFFFFFF }
      else if app.menu.menuSelect = 3 then { cfg with lcdSleepTimer := 21000 }
      else cfg
    chosen.setStatus .setSubmenu1_6

def submenu1_6_2 : Application :=
  if call.keyValue = keyFunLeftDown then
    app.change call.sysTickCnt .setSubmenu1_6
  else app

def submenu1_6_3 : Application :=
  if call.keyValue = keyFunLeftDown then
    app.change call.sysTickCnt .setSubmenu1_6
  else if call.keyValue = keyFunOkDown ∨ call.keyValue = keyFunRightDown then
    (app.configure calls.deviceConfigSetDefault).change call.sysTickCnt
      .workingMain
  else app

def submenu1_6_4 : Application :=
  choiceKeys call app .setSubmenu1_6 2 fun app =>
    let chosen := app.configure fun cfg =>
      if app.menu.menuSelect = 0 then { cfg with pttSound := 1 }
      else if app.menu.menuSelect = 1 then { cfg with pttSound := 0 }
      else cfg
    chosen.setStatus .setSubmenu1_6

def submenu1_6_5 : Application :=
  choiceKeys call app .setSubmenu1_6 2 fun app =>
    let chosen := app.configure fun cfg =>
      if app.menu.menuSelect = 0 then { cfg with keySound := 1 }
      else if app.menu.menuSelect = 1 then { cfg with keySound := 0 }
      else cfg
    chosen.setStatus .setSubmenu1_6

def submenu1_2Seaching : Application :=
  let waited :=
    if 6000 < app.changeTimer call.sysTickCnt then
      app.change call.sysTickCnt .menuSetMain
    else app
  if 0 < waited.pocPara.memberOnlineCnt then
    (waited.radio fun para =>
      { para with memberOnlineCnt := para.memberOnlineCnt - 1 }).change
      call.sysTickCnt .setSubmenu1_2
  else waited

def workingUnlocking : Application :=
  let unlocked :=
    if call.keyValue = keyFunXingDown then
      app.change call.sysTickCnt .workingMain
    else app
  if 5000 < unlocked.changeTimer call.sysTickCnt then
    unlocked.change call.sysTickCnt .workingLocked
  else unlocked

def callScreen : Application :=
  let unanswered :=
    if app.status = .calling ∧ 5000 < app.changeTimer call.sysTickCnt ∧
        app.pocPara.callStatus ≠ .callSuccess then
      app.change call.sysTickCnt .workingMain
    else app
  let cancelled :=
    if call.keyValue = keyFunLeftDown then
      (unanswered.radio calls.pocCallClr).change call.sysTickCnt .workingMain
    else unanswered
  let ended :=
    if cancelled.pocPara.callStatus = .callFailed ∨
        cancelled.pocPara.callStatus = .callExit then
      cancelled.change call.sysTickCnt .workingMain
    else cancelled
  if 30000 < ended.changeTimer call.sysTickCnt then
    ended.change call.sysTickCnt .workingMain
  else ended

/-- Before the radio starts.  The key for the update sets a flag in flash and
resets the device, so the call does not return. -/
def statusNormal : Option Application :=
  if call.keyValue = keyFunPttDown then
    some (app.change call.sysTickCnt .writeCode)
  else if call.keyValue = keyFunHightDown then none
  else if 1000 < app.changeTimer call.sysTickCnt then
    some (app.change call.sysTickCnt .starting)
  else some app

def statusStarting : Application :=
  if app.pocPara.status = .statusCheckedOk then
    app.change call.sysTickCnt .enterPoc
  else app

def statusEnterPoc : Application :=
  if app.pocPara.status = .statusLandSuccessed then
    app.change call.sysTickCnt .workingMain
  else if app.pocPara.status = .statusSimError then
    app.change call.sysTickCnt .enterSimError
  else app

/-- With a key only. -/
def onKey (effect : Application → Application) : Application :=
  if call.keyValue ≠ keyValueNone then effect app else app

/-- The switch on the open screen.  A device that is shut down either cuts its
own power or sleeps until a reset, so the call may not return. -/
def screenTask : Option Application :=
  match app.status with
  | .normal => statusNormal call app
  | .writeCode => some (app.configure calls.writeCodeTask)
  | .starting => some (statusStarting call app)
  | .enterPoc => some (statusEnterPoc call app)
  | .workingLocked => some (onKey call app (appWorkingLocked calls call))
  | .workingUnlocking => some (workingUnlocking call app)
  | .workingMain => some (onKey call app (appWorkingMain calls call))
  | .menuSetMain => some (onKey call app (appMenuMain calls call))
  | .setSubmenu1_1 => some (onKey call app (appFunSetSunmenu1 calls call))
  | .setSubmenu1_2 => some (onKey call app (appFunSetSunmenu1 calls call))
  | .setSubmenu1_3 => some (onKey call app (appFunSetSunmenu1 calls call))
  | .setSubmenu1_4 => some (onKey call app (appFunSetSunmenu1 calls call))
  | .setSubmenu1_5 => some (onKey call app (appFunSetSunmenu1 calls call))
  | .setSubmenu1_6 => some (onKey call app (appFunSetSunmenu1 calls call))
  | .setSubmenu1_2Seaching => some (submenu1_2Seaching call app)
  | .setSubmenu1_6_3 => some (submenu1_6_3 calls call app)
  | .beCalled => some (callScreen calls call app)
  | .calling => some (callScreen calls call app)
  | .setSubmenu1_2_1 => some (submenu1_2_1 calls call app)
  | .setSubmenu1_6_5 => some (submenu1_6_5 call app)
  | .setSubmenu1_6_4 => some (submenu1_6_4 call app)
  | .setSubmenu1_6_2 => some (submenu1_6_2 call app)
  | .setSubmenu1_6_1 => some (submenu1_6_1 call app)
  | .setSubmenu1_3_1 => some (submenu1_3_1 calls call app)
  | .setSubmenu1_4_1 => some (submenu1_4_1 calls call app)
  | .deviceShutdown => if 1000 < call.adcValue then none else some app
  | _ => some app

def batCheck : Application :=
  let checked :=
    appBatCheckTask call.sysTickCnt call.adcValue app.status app.battery
  let counted := { app with battery := checked.1 }
  if checked.2 then
    (counted.radio calls.pocShutDown).change call.sysTickCnt .deviceShutdown
  else counted

def talkAction (app : Application) (action : TalkAction) : Application :=
  match action with
  | .applicationStateChange state => app.change call.sysTickCnt state
  | other => app.radio (calls.pocTalk other)

def pttTask : Application :=
  let talk := appPttTalkTask { app.talk with actions := [] }
    { keyValue := call.keyValue
      sysTickCnt := call.sysTickCnt
      talkerId := app.pocPara.talkerId
      talkerPriority := app.pocPara.talkerPriority
      status := app.pocPara.status
      appStatus := app.status }
  talk.actions.foldl (talkAction calls call) { app with talk := talk }

/-- A key wakes the display. -/
def keyWake : Application :=
  if call.keyValue ≠ keyValueNone ∧ call.keyValue < keyValueStatusDown ∧
      app.status ≠ .deviceShutdown ∧ app.status ≠ .deviceStatusSleep ∧
      call.keyValue ≠ keyFunJingDown then
    { app with
      menu :=
        { app.menu with
          appDevice :=
            { app.menu.appDevice with changeTime := call.sysTickCnt } } }
  else app

/-- `poc_para->status == POC_CALL_NOMAL || poc_para->status == POC_CALL_EXIT`:
the status of the module is compared with the numbers of a call status. -/
def moduleReadsIdle (status : PocStatus) : Bool :=
  status.ctorIdx = PocCallStatus.callNomal.ctorIdx ||
    status.ctorIdx = PocCallStatus.callExit.ctorIdx

/-- Back to the main screen after 20 seconds. -/
def idleFallback : Application :=
  if 20000 < app.changeTimer call.sysTickCnt ∧
      AppStatus.workingMain.ctorIdx < app.status.ctorIdx ∧
      moduleReadsIdle app.pocPara.status ∧ app.pocPara.talkerId = 0 then
    app.change call.sysTickCnt .workingMain
  else app

def autoLock : Application :=
  if app.cfg.lcdSleepTimer < app.changeTimer call.sysTickCnt ∧
      AppStatus.workingLocked.ctorIdx ≤ app.status.ctorIdx ∧
      (app.pocPara.callStatus = .callNomal ∨
        app.pocPara.callStatus = .callExit) ∧ app.pocPara.talkerId = 0 then
    app.change call.sysTickCnt .workingLocked
  else app

def homeKey : Application :=
  if AppStatus.menuSetMain.ctorIdx ≤ app.status.ctorIdx ∧
      call.keyValue = keyFunHomeDown then
    app.change call.sysTickCnt .workingMain
  else app

def incomingCall : Application :=
  if app.status ≠ .calling ∧ app.status ≠ .beCalled ∧
      app.pocPara.callStatus = .beCalled ∧ app.cfg.singleCallFlag = 0x31 then
    app.change call.sysTickCnt .beCalled
  else app

/-- One call of `application_task`, `none` if it does not return. -/
def applicationTask : Option Application :=
  match screenTask calls call app with
  | none => none
  | some shown =>
      let powered := batCheck calls call shown
      let talked := pttTask calls call powered
      let woken := keyWake call talked
      let fallen := idleFallback call woken
      let locked := autoLock call fallen
      some (incomingCall call (homeKey call locked))

end

end Tp79Boot
