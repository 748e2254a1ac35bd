import Mathlib.Tactic.Simps.Basic
import Tp79Boot.Device

/-!
# State of the update protocol

`poc_device`, the other variables of the boot program, and what `poc_init` and
`poc_send_cmd` do with them.  Texts sent to the radio module are collected in
order; turning the module on and the short delays have no place in the state.
-/

namespace Tp79Boot

/-- `poc_device_status_t`. -/
inductive PocStatus where
  | statusStarting
  | statusCheckedOk
  | statusEnterOk
  | statusSimOk
  | statusSimError
  | statusLanding
  | statusLandOut
  | statusLandSuccessed
  | statusShutdown
  | statusShutdowning
  | verUpgrade
  | verSame
  | verDwonload
  | verDwonloadSuccess
deriving DecidableEq, Repr

/-- `poc_device_t`. -/
structure PocDevice where
  status : PocStatus
  downStatus : UInt8
  downPackCnt : UInt16
  packSum : UInt16
  serverSoftVer : Vector UInt8 32
  serverSoftId : Vector UInt8 4
deriving DecidableEq

/-- The variables of the boot program.  `pastCfg` is the memory after
`device_cfg`, which is read when no zero ends the stored version.  Ticks are
32-bit and wrap round. -/
structure Boot where
  pocDevice : PocDevice
  deviceCfg : DeviceCfg
  pastCfg : List UInt8
  eraseFlag : UInt8
  resendTimer : UInt32
  sendTimes : UInt8
  oldSendCnt : UInt16
  flash : Flash
  sent : List (List UInt8)

namespace Boot

@[simps]
def setStatus (boot : Boot) (status : PocStatus) : Boot :=
  { boot with pocDevice := { boot.pocDevice with status := status } }

@[simps]
def uart2SendString (boot : Boot) (text : List UInt8) : Boot :=
  { boot with sent := boot.sent ++ [text] }

/-- The memory at `device_cfg.ver`. -/
def cfgVer (boot : Boot) : List UInt8 :=
  boot.deviceCfg.ver.toList ++ boot.pastCfg

end Boot

/-- `memset(&poc_device, 0, sizeof(poc_device_t))`. -/
def PocDevice.zero : PocDevice :=
  { status := .statusStarting
    downStatus := 0
    downPackCnt := 0
    packSum := 0
    serverSoftVer := Vector.replicate 32 0
    serverSoftId := Vector.replicate 4 0 }

def pocInit (boot : Boot) : Boot :=
  let first := boot.uart2SendString (ascii "AT+CFUN=1,1\r\n")
  let second := first.uart2SendString (ascii "AT+CFUN=1,1\r\n")
  { second with pocDevice := PocDevice.zero }

/-- The state in which `download_code_bin` enters its loop: the static
variables are zero since reset, and `poc_init` has run. -/
def Boot.start (mem : NorMemory.Mem) (deviceCfg : DeviceCfg)
    (pastCfg : List UInt8) : Boot :=
  pocInit
    { pocDevice := PocDevice.zero
      deviceCfg := deviceCfg
      pastCfg := pastCfg
      eraseFlag := 0
      resendTimer := 0
      sendTimes := 0
      oldSendCnt := 0
      flash := { mem := mem, log := [] }
      sent := [] }

/-- `poc_cmd_t`. -/
inductive PocCmd where
  | test
  | ate0
  | cpin
  | pocOpening
  | pocKeySound
  | pocCclk
  | pocCsq
  | pocRefreshGroup
  | powerOff
  | pocCreg
  | atzadset
  | pocMemberSimpleMsg
  | pocLand
  | pocLandOut
  | powerRst
  | getMeid
  | qiotrpt
  | pocRefreshGps
  | pocParaGet
deriving DecidableEq, Repr

/-- The arrays `cmd` and `poc_cmd_string`, side by side. -/
def pocCmdString : List (PocCmd × List UInt8) :=
  [(.test, ascii "AT\r\n"),
    (.ate0, ascii "ATE0\r\n"),
    (.cpin, ascii "AT+CPIN?\r\n"),
    (.pocOpening, ascii "AT+POC=000000010101\r\n"),
    (.pocCclk, ascii "AT+CCLK?\r\n"),
    (.pocCsq, ascii "AT+CSQ\r\n"),
    (.pocRefreshGroup, ascii "AT+POC=0D0000\r\n"),
    (.powerOff, ascii "AT+QPOWD=0\r\n"),
    (.pocCreg, ascii "AT+QNWINFO\r\n"),
    (.atzadset, ascii "AT+ZADSET=d\r\n"),
    (.pocMemberSimpleMsg, ascii "AT+POC=10000020\r\n"),
    (.pocLand, ascii "AT+POC=030000\r\n"),
    (.pocLandOut, ascii "AT+POC=050000\r\n"),
    (.powerRst, ascii "AT+CFUN=1,1\r\n"),
    (.getMeid, ascii "AT^MEID\r\n"),
    (.qiotrpt, ascii "AT+QIOTRPT=1,0\r\n"),
    (.pocRefreshGps, ascii "AT+QGPSGNMEA=\"GGA\"\r\n"),
    (.pocParaGet, ascii "AT+POC=020000\r\n")]

def pocSendCmd (boot : Boot) (pocCmd : PocCmd) : Boot :=
  pocCmdString.foldl (fun current (cmd, text) =>
    if pocCmd = cmd then current.uart2SendString text else current) boot

/-- Sending a command only adds to what was sent. -/
theorem pocSendCmd_eq (boot : Boot) (pocCmd : PocCmd) :
    ∃ texts, pocSendCmd boot pocCmd =
      { boot with sent := boot.sent ++ texts } := by
  unfold pocSendCmd
  generalize pocCmdString = table
  induction table generalizing boot with
  | nil => exact ⟨[], by simp⟩
  | cons entry table induction =>
      obtain ⟨cmd, text⟩ := entry
      rw [List.foldl_cons]
      by_cases wanted : pocCmd = cmd
      · obtain ⟨texts, equation⟩ := induction (boot.uart2SendString text)
        refine ⟨text :: texts, ?_⟩
        simp [wanted, Boot.uart2SendString] at equation ⊢
        exact equation
      · simpa [wanted] using induction boot

end Tp79Boot
