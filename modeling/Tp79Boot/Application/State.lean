import Tp79Boot.Key

/-!
# The application

`app_device` of `application.c`: which screen is open and what is selected on
it, and the keys as the application names them.
-/

namespace Tp79Boot

/-- `app_status_t`, in its order. -/
inductive AppStatus where
  | normal
  | deviceShutdown
  | deviceStatusSleep
  | writeProgram
  | writeCode
  | starting
  | enterPoc
  | enterSimError
  | seachNetwork
  | workingLocked
  | workingUnlocking
  | workingMain
  | menuSetMain
  | setSubmenu1_1
  | setSubmenu1_2
  | setSubmenu1_3
  | setSubmenu1_4
  | setSubmenu1_5
  | setSubmenu1_6
  | setSubmenu1_2Seaching
  | setSubmenu1_2_1
  | setSubmenu1_3_1
  | setSubmenu1_4_1
  | setSubmenu1_6_1
  | setSubmenu1_6_2
  | setSubmenu1_6_3
  | setSubmenu1_6_4
  | setSubmenu1_6_5
  | calling
  | beCalled
deriving DecidableEq, Repr

/-- `application_get_status() > APP_STATUS_SEACH_NETWORK`. -/
def AppStatus.pastSearch (status : AppStatus) : Bool :=
  AppStatus.seachNetwork.ctorIdx < status.ctorIdx

/-- `app_device_t`. -/
structure AppDevice where
  status : AppStatus
  menuSelect : UInt16
  menuLastSelect : UInt16
  changeTime : UInt32
deriving DecidableEq

def applicationStateChange (sysTickCnt : UInt32) (appDevice : AppDevice)
    (state : AppStatus) : AppDevice :=
  { status := state
    menuSelect := 0
    menuLastSelect := appDevice.menuSelect
    changeTime := sysTickCnt }

def keyFunLeftDown : KeyValue := 1
def keyFunUpDown : KeyValue := 2
def keyFunRightDown : KeyValue := 3
def keyFunHomeDown : KeyValue := 4
def keyFunDownDown : KeyValue := 5
def keyFunOkDown : KeyValue := 6
def keyFunXingDown : KeyValue := 10
def keyFunJingDown : KeyValue := 18
def keyFunPttDown : KeyValue := keyValueDown19
def keyFunPttUp : KeyValue := keyValueDown19 + (keyValueUp1 - keyValueDown1)
def keyFunHightDown : KeyValue := keyValueDown20
def keyFunHightUp : KeyValue := keyValueDown20 + (keyValueUp1 - keyValueDown1)
def keyFunLowDown : KeyValue := keyValueDown21
def keyFunHightDown3S : KeyValue := 42
def keyFunLowDown3S : KeyValue := 43

def keyFunNum1Down : KeyValue := 7
def keyFunNum3Down : KeyValue := 9
def keyFunNum4Down : KeyValue := 11
def keyFunNum6Down : KeyValue := 13
def keyFunNum0Down : KeyValue := 14
def keyFunNum7Down : KeyValue := 15
def keyFunNum9Down : KeyValue := 17

/-- The digit on a number key, `0xff` for other keys. -/
def appKeyvalueToNum (keyValue : KeyValue) : UInt8 :=
  if keyFunNum1Down ≤ keyValue ∧ keyValue ≤ keyFunNum3Down then
    keyValue - keyFunNum1Down + 1
  else if keyFunNum4Down ≤ keyValue ∧ keyValue ≤ keyFunNum6Down then
    keyValue - keyFunNum4Down + 4
  else if keyValue = keyFunNum0Down then keyValue - keyFunNum0Down + 0
  else if keyFunNum7Down ≤ keyValue ∧ keyValue ≤ keyFunNum9Down then
    keyValue - keyFunNum7Down + 7
  else 0xFF

end Tp79Boot
