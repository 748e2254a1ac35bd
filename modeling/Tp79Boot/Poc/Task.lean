import Tp79Boot.Poc.Message

/-!
# The status switch of `poc_task`

`poc_task` first acts on the status: it asks the module for the next thing it
needs and, when every announced packet is there, reports success.  `tick` is
`SysTick_Cnt`.
-/

namespace Tp79Boot

/-- The request for the version with the announced id. -/
def downloadCmd (serverSoftId : Vector UInt8 4) : List UInt8 :=
  writeAt (writeAt (ascii "AT+POC=430000000000\r\n") 15 serverSoftId.toList)
    19 (ascii "\r\n")

/-- The request for packet `packCnt`, whose number takes four digits. -/
def packetCmd (packCnt : UInt16) : List UInt8 :=
  let cnt := [((packCnt >>> 8) &&& (0x00FF : UInt16)).toUInt8,
    (packCnt &&& (0x00FF : UInt16)).toUInt8]
  writeAt (writeAt (ascii "AT+POC=430000010001\r\n") 15 (hexToStr cnt 2))
    19 (ascii "\r\n")

/-- A timer ahead of the clock is put back to it. -/
def heldTimer (tick : UInt32) (boot : Boot) : Boot :=
  if boot.resendTimer > tick then { boot with resendTimer := tick } else boot

def pocTaskSwitch (tick : UInt32) (boot : Boot) : Boot :=
  let boot := heldTimer tick boot
  match boot.pocDevice.status with
  | .statusStarting =>
      if tick - boot.resendTimer > 1000 then
        pocSendCmd { boot with resendTimer := tick } .ate0
      else boot
  | .statusCheckedOk =>
      if tick - boot.resendTimer > 5000 then
        pocSendCmd { boot with resendTimer := tick } .pocOpening
      else boot
  | .statusLandSuccessed =>
      if boot.pocDevice.serverSoftVer[0] = 0 then
        if tick - boot.resendTimer > 2000 then
          { boot with resendTimer := tick }.uart2SendString
            (ascii "AT+POC=420000\r\n")
        else boot
      else boot
  | .verDwonload =>
      if boot.pocDevice.downPackCnt = 0 then
        if (tick - boot.resendTimer > 5000 ∨ boot.sendTimes = 0) ∧
            boot.pocDevice.downStatus = 0 then
          let sent := { boot with resendTimer := tick }.uart2SendString
            (downloadCmd boot.pocDevice.serverSoftId)
          { sent with sendTimes := boot.sendTimes + 1 }
        else boot
      else boot
  | .verUpgrade =>
      if boot.pocDevice.downPackCnt < boot.pocDevice.packSum then
        if tick - boot.resendTimer > 2000 ∨
            boot.oldSendCnt ≠ boot.pocDevice.downPackCnt then
          { boot with
            oldSendCnt := boot.pocDevice.downPackCnt
            resendTimer := tick }.uart2SendString
              (packetCmd (boot.pocDevice.downPackCnt + 1))
        else boot
      else
        (boot.setStatus .verDwonloadSuccess).uart2SendString
          (ascii "AT+QPOWD=0\r\n")
  | _ => boot

/-- The status after the switch: it moves only when the download is done. -/
def switchedStatus (pocDevice : PocDevice) : PocStatus :=
  if pocDevice.status = .verUpgrade ∧
      pocDevice.packSum ≤ pocDevice.downPackCnt then .verDwonloadSuccess
  else pocDevice.status

/-- What no request changes. -/
structure OnlyRequests (before after : Boot) : Prop where
  pocDevice : after.pocDevice = before.pocDevice
  deviceCfg : after.deviceCfg = before.deviceCfg
  pastCfg : after.pastCfg = before.pastCfg
  eraseFlag : after.eraseFlag = before.eraseFlag
  flash : after.flash = before.flash

namespace OnlyRequests

theorem refl (boot : Boot) : OnlyRequests boot boot :=
  ⟨rfl, rfl, rfl, rfl, rfl⟩

theorem requested {before after : Boot} (requests : OnlyRequests before after)
    (resendTimer : UInt32) (sendTimes : UInt8) (oldSendCnt : UInt16)
    (sent : List (List UInt8)) :
    OnlyRequests before
      { after with
        resendTimer := resendTimer
        sendTimes := sendTimes
        oldSendCnt := oldSendCnt
        sent := sent } :=
  ⟨requests.pocDevice, requests.deviceCfg, requests.pastCfg,
    requests.eraseFlag, requests.flash⟩

theorem commanded {before after : Boot} (requests : OnlyRequests before after)
    (resendTimer : UInt32) (pocCmd : PocCmd) :
    OnlyRequests before
      (pocSendCmd { after with resendTimer := resendTimer } pocCmd) := by
  obtain ⟨texts, sent⟩ :=
    pocSendCmd_eq { after with resendTimer := resendTimer } pocCmd
  rw [sent]
  exact requests.requested _ _ _ _

theorem either {before next other : Boot} {c : Prop} [Decidable c]
    (taken : OnlyRequests before next) (left : OnlyRequests before other) :
    OnlyRequests before (if c then next else other) := by
  split
  · exact taken
  · exact left

end OnlyRequests

theorem heldTimer_onlyRequests (tick : UInt32) (boot : Boot) :
    OnlyRequests boot (heldTimer tick boot) := by
  have unchanged := OnlyRequests.refl boot
  exact (unchanged.requested _ _ _ _).either unchanged

/-- Besides the status, the switch changes only timers, counters of requests
and what was sent. -/
theorem pocTaskSwitch_onlyRequests (tick : UInt32) (boot : Boot) :
    OnlyRequests (boot.setStatus (switchedStatus boot.pocDevice))
      (pocTaskSwitch tick boot) := by
  have held := heldTimer_onlyRequests tick boot
  have waiting (unmoved : switchedStatus boot.pocDevice =
      boot.pocDevice.status) :
      boot.setStatus (switchedStatus boot.pocDevice) = boot := by
    rw [unmoved]
    rfl
  have elsewhere (other : boot.pocDevice.status ≠ .verUpgrade) :
      boot.setStatus (switchedStatus boot.pocDevice) = boot :=
    waiting (by simp [switchedStatus, other])
  unfold pocTaskSwitch
  generalize heldTimer tick boot = next at held ⊢
  have sameStatus : next.pocDevice.status = boot.pocDevice.status := by
    rw [held.pocDevice]
  cases status : boot.pocDevice.status with
  | statusStarting =>
      rw [elsewhere (by simp [status])]
      simp only [sameStatus, status]
      exact (held.commanded _ _).either held
  | statusCheckedOk =>
      rw [elsewhere (by simp [status])]
      simp only [sameStatus, status]
      exact (held.commanded _ _).either held
  | statusLandSuccessed =>
      rw [elsewhere (by simp [status])]
      simp only [sameStatus, status]
      exact ((held.requested _ _ _ _).either held).either held
  | verDwonload =>
      rw [elsewhere (by simp [status])]
      simp only [sameStatus, status]
      exact ((held.requested _ _ _ _).either held).either held
  | verUpgrade =>
      simp only [sameStatus, status]
      split
      next unfinished =>
        have notReached :
            ¬boot.pocDevice.packSum ≤ boot.pocDevice.downPackCnt := by
          rw [← held.pocDevice]
          exact UInt16.not_le.mpr unfinished
        rw [waiting (by simp [switchedStatus, notReached])]
        exact (held.requested _ _ _ _).either held
      next finished =>
        have reached :
            boot.pocDevice.packSum ≤ boot.pocDevice.downPackCnt := by
          rw [← held.pocDevice]
          exact UInt16.not_lt.mp finished
        have moved : switchedStatus boot.pocDevice = .verDwonloadSuccess := by
          simp [switchedStatus, status, reached]
        rw [moved]
        refine ⟨?_, held.deviceCfg, held.pastCfg, held.eraseFlag, held.flash⟩
        simp only [Boot.uart2SendString, Boot.setStatus, held.pocDevice]
  | _ =>
      rw [elsewhere (by simp [status])]
      simp only [sameStatus, status]
      exact held

theorem pocTaskSwitch_finished {tick : UInt32} {boot : Boot}
    (upgrade : boot.pocDevice.status = .verUpgrade)
    (finished : boot.pocDevice.packSum ≤ boot.pocDevice.downPackCnt) :
    (pocTaskSwitch tick boot).pocDevice.status = .verDwonloadSuccess := by
  have requests := pocTaskSwitch_onlyRequests tick boot
  rw [requests.pocDevice, Boot.setStatus_pocDevice_status, switchedStatus,
    if_pos ⟨upgrade, finished⟩]

end Tp79Boot
