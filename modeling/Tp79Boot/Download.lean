import Tp79Boot.FlashUpdata
import Tp79Boot.Poc.PacketStore

/-!
# The download loop

`download_code_bin` of `main.c`.  Each turn calls `poc_task`, takes a branch on
the status, and looks at the clock.  Three ways lead out of the loop, and each
of them clears the word that makes `main` start the update.  What is shown on
the display is left out.
-/

namespace Tp79Boot

open NorMemory EventRun

/-- The word that `main` compares with `0x88888888`. -/
def bootFlag (flash : Flash) : UInt32 :=
  wordOfBytes (flashRead flash flashAddrBootFlag 4)

/-- `Flash_Erase(FLASH_ADDR_BOOT_FLAG, 2*1024)`. -/
def eraseBootFlag (flash : Flash) : Flash :=
  (flashErase flash flashAddrBootFlag (2 * 1024)).get
    (flashErase_isSome flash flashAddrBootFlag onePage_turns)

/-- `Flash_Updata(FLASH_ADDR_BOOT_FLAG, &boot_flag, 4)` with the value 0. -/
def clearBootFlag (flash : Flash) : Flash :=
  flashUpdata flash flashAddrBootFlag (wordBytes 0) 4

/-- The stored version is the announced one. -/
def leaveSame (boot : Boot) : Boot :=
  { boot with flash := clearBootFlag boot.flash }

/-- The configuration that is saved after an update. -/
def updatedCfg (deviceCfg : DeviceCfg) (serverSoftVer : Vector UInt8 32) :
    DeviceCfg :=
  { initFlag := 0x66666666
    ver := memcpyField (clearField deviceCfg.ver 0) serverSoftVer.toList 18 }

theorem updatedCfg_ver (deviceCfg : DeviceCfg)
    (serverSoftVer : Vector UInt8 32) {index : Nat} (bound : index < 32) :
    byteAt (updatedCfg deviceCfg serverSoftVer).ver.toList index =
      if index < 18 then serverSoftVer[index] else 0 := by
  rw [byteAt_toList _ bound]
  simp only [updatedCfg, memcpyField_getElem, clearField_getElem]
  rw [byteAt_toList _ bound, if_pos (Nat.zero_le index)]

/-- The update is complete: the version is recorded. -/
def leaveSuccess (boot : Boot) : Boot :=
  let deviceCfg := updatedCfg (deviceConfigRead boot.flash)
    boot.pocDevice.serverSoftVer
  { boot with
    deviceCfg := deviceCfg
    flash := deviceConfigSaveFlash deviceCfg
      (clearBootFlag (eraseBootFlag boot.flash)) }

/-- Five minutes have passed outside an upgrade. -/
def leaveTimeout (boot : Boot) : Boot :=
  { boot with flash := clearBootFlag (eraseBootFlag boot.flash) }

theorem leaveSame_flash (boot : Boot) :
    (leaveSame boot).flash = clearBootFlag boot.flash := by
  rw [leaveSame]

theorem leaveSuccess_flash (boot : Boot) :
    (leaveSuccess boot).flash =
      deviceConfigSaveFlash (updatedCfg (deviceConfigRead boot.flash)
        boot.pocDevice.serverSoftVer)
        (clearBootFlag (eraseBootFlag boot.flash)) := by
  rw [leaveSuccess]

theorem leaveTimeout_flash (boot : Boot) :
    (leaveTimeout boot).flash =
      clearBootFlag (eraseBootFlag boot.flash) := by
  rw [leaveTimeout]

/-- Where the loop stands: at its top, inside `poc_task` after the switch,
after the branches, or left. -/
inductive Phase where
  | polling
  | draining
  | branched
  | left
deriving DecidableEq, Repr

/-- `history` lists what has happened to the protocol, oldest first. -/
structure Download where
  phase : Phase
  boot : Boot
  history : List PocEvent

/-- The parts of a turn.  A line that `poc_task` takes out of the ring is an
event of its own, as is every look at the clock. -/
inductive LoopEvent where
  | poll (tick : UInt32)
  | receive (ptr : List UInt8)
  | branch
  | timeout (tick : UInt32)

/-- An event that does not come next in a turn changes nothing. -/
def loopStep (download : Download) : LoopEvent → Download
  | .poll tick =>
      if download.phase = .polling then
        { phase := .draining
          boot := pocTaskSwitch tick download.boot
          history := download.history ++ [.poll tick] }
      else download
  | .receive ptr =>
      if download.phase = .draining then
        { download with
          boot := pocUartMsgDeal download.boot ptr
          history := download.history ++ [.receive ptr] }
      else download
  | .branch =>
      if download.phase = .draining then
        if download.boot.pocDevice.status = .verSame then
          { download with phase := .left, boot := leaveSame download.boot }
        else if download.boot.pocDevice.status = .verDwonloadSuccess then
          { download with phase := .left, boot := leaveSuccess download.boot }
        else { download with phase := .branched }
      else download
  | .timeout tick =>
      if download.phase = .branched then
        if download.boot.pocDevice.status ≠ .verUpgrade ∧ tick > 300000 then
          { download with phase := .left, boot := leaveTimeout download.boot }
        else { download with phase := .polling }
      else download

/-- `download_code_bin` has called `poc_init`. -/
def Download.start (mem : Mem) (deviceCfg : DeviceCfg) (pastCfg : List UInt8) :
    Download :=
  { phase := .polling
    boot := Boot.start mem deviceCfg pastCfg
    history := [] }

/-- The start of a turn: `poc_task` switches on the status and then takes
`lines` out of the ring. -/
def turn (tick : UInt32) (lines : List (List UInt8)) : List LoopEvent :=
  .poll tick :: lines.map .receive

/-- The same turn as the protocol sees it. -/
def turnEvents (tick : UInt32) (lines : List (List UInt8)) : List PocEvent :=
  .poll tick :: lines.map .receive

theorem run_receive (lines : List (List UInt8)) (download : Download)
    (draining : download.phase = .draining) :
    run loopStep download (lines.map .receive) =
      { download with
        boot := run pocStep download.boot (lines.map .receive)
        history := download.history ++ lines.map .receive } := by
  induction lines generalizing download with
  | nil => simp
  | cons line lines induction =>
      have next : loopStep download (.receive line) =
          { download with
            boot := pocUartMsgDeal download.boot line
            history := download.history ++ [.receive line] } :=
        if_pos draining
      have later := induction (loopStep download (.receive line)) (by
        rw [next]
        exact draining)
      rw [List.map_cons, List.map_cons, run_cons, run_cons, later, next,
        List.append_assoc]
      rfl

theorem run_turn (tick : UInt32) (lines : List (List UInt8))
    {download : Download} (polling : download.phase = .polling) :
    run loopStep download (turn tick lines) =
      { phase := .draining
        boot := run pocStep download.boot (turnEvents tick lines)
        history := download.history ++ turnEvents tick lines } := by
  have next : loopStep download (.poll tick) =
      { phase := .draining
        boot := pocTaskSwitch tick download.boot
        history := download.history ++ [.poll tick] } := if_pos polling
  rw [turn, run_cons, next, run_receive lines _ rfl]
  simp [turnEvents, pocStep]

theorem turnEvents_concat (tick : UInt32) (lines : List (List UInt8))
    (line : List UInt8) :
    turnEvents tick (lines ++ [line]) =
      turnEvents tick lines ++ [.receive line] := by
  simp [turnEvents]

theorem run_turnEvents_concat (boot : Boot) (tick : UInt32)
    (lines : List (List UInt8)) (line : List UInt8) :
    run pocStep boot (turnEvents tick (lines ++ [line])) =
      pocUartMsgDeal (run pocStep boot (turnEvents tick lines)) line := by
  rw [turnEvents_concat, run_concat]
  rfl

/-- `boot_task`: `device_init` and `boot_ui_init` each read the configuration,
then the loop is entered. -/
def bootTask (mem : Mem) (pastCfg : List UInt8) : Download :=
  let flash := (deviceInit { mem := mem, log := [] }).2
  Download.start flash.mem (deviceConfigRead flash) pastCfg

/-- A turn of an upgrade ends, and the next one begins. -/
theorem run_upgrade {download : Download}
    (draining : download.phase = .draining)
    (upgrade : download.boot.pocDevice.status = .verUpgrade)
    (first second : UInt32) :
    run loopStep download [.branch, .timeout first, .poll second] =
      { phase := .draining
        boot := pocTaskSwitch second download.boot
        history := download.history ++ [.poll second] } := by
  have branched : loopStep download .branch =
      { download with phase := .branched } := by
    simp [loopStep, draining, upgrade]
  have stays : ¬(download.boot.pocDevice.status ≠ .verUpgrade ∧
      first > 300000) := fun both => both.1 upgrade
  rw [run_cons, run_cons, run_cons, run_nil, branched]
  simp only [loopStep, if_true, if_neg stays]

/-- The end of a turn that has taken too long. -/
theorem run_timeout {download : Download} {tick : UInt32}
    (draining : download.phase = .draining)
    (notSame : download.boot.pocDevice.status ≠ .verSame)
    (notSuccess : download.boot.pocDevice.status ≠ .verDwonloadSuccess)
    (notUpgrade : download.boot.pocDevice.status ≠ .verUpgrade)
    (late : tick > 300000) :
    run loopStep download [.branch, .timeout tick] =
      { download with phase := .left, boot := leaveTimeout download.boot } := by
  have branched : loopStep download .branch =
      { download with phase := .branched } := by
    simp only [loopStep, if_pos draining, if_neg notSame, if_neg notSuccess]
  have leaves : download.boot.pocDevice.status ≠ .verUpgrade ∧
      tick > 300000 := ⟨notUpgrade, late⟩
  rw [run_cons, run_cons, run_nil, branched]
  simp only [loopStep, if_true, if_pos leaves]

/-- How the loop was left. -/
inductive Exit (boot : Boot) : Boot → Prop where
  | same (status : boot.pocDevice.status = .verSame) :
      Exit boot (leaveSame boot)
  | success (status : boot.pocDevice.status = .verDwonloadSuccess) :
      Exit boot (leaveSuccess boot)
  | timeout (status : boot.pocDevice.status ≠ .verUpgrade) :
      Exit boot (leaveTimeout boot)

/-- Inside the loop the state is that of the protocol after the history; once
left, it is that state after one of the exits. -/
structure Tracks (start : Boot) (download : Download) : Prop where
  inside : download.phase ≠ .left →
    download.boot = run pocStep start download.history
  outside : download.phase = .left →
    Exit (run pocStep start download.history) download.boot

section

variable {start : Boot} {download : Download}

theorem Tracks.moved (tracks : Tracks start download) {phase : Phase}
    (before : download.phase ≠ .left) (after : phase ≠ .left) :
    Tracks start { download with phase := phase } :=
  ⟨fun _ => tracks.inside before, fun left => absurd left after⟩

theorem Tracks.protocol (tracks : Tracks start download)
    (before : download.phase ≠ .left) (event : PocEvent) :
    Tracks start
      { phase := .draining
        boot := pocStep download.boot event
        history := download.history ++ [event] } := by
  constructor
  · intro _
    rw [tracks.inside before, run_concat]
  · intro left
    cases left

theorem Tracks.exit (tracks : Tracks start download)
    (before : download.phase ≠ .left) {boot : Boot}
    (leaving : Exit download.boot boot) :
    Tracks start { download with phase := .left, boot := boot } := by
  constructor
  · intro inside
    exact absurd rfl inside
  · intro _
    rw [tracks.inside before] at leaving
    exact leaving

theorem Tracks.step (tracks : Tracks start download) (event : LoopEvent) :
    Tracks start (loopStep download event) := by
  cases event with
  | poll tick =>
      simp only [loopStep]
      split
      next polling =>
        exact tracks.protocol (by simp [polling]) (.poll tick)
      next => exact tracks
  | receive ptr =>
      simp only [loopStep]
      split
      next draining =>
        have next := tracks.protocol (by simp [draining]) (.receive ptr)
        rw [← draining] at next
        exact next
      next => exact tracks
  | branch =>
      simp only [loopStep]
      split
      next draining =>
        have before : download.phase ≠ .left := by simp [draining]
        split
        next same => exact tracks.exit before (.same same)
        next =>
          split
          next success => exact tracks.exit before (.success success)
          next => exact tracks.moved before (by decide)
      next => exact tracks
  | timeout tick =>
      simp only [loopStep]
      split
      next branched =>
        have before : download.phase ≠ .left := by simp [branched]
        split
        next late => exact tracks.exit before (.timeout late.1)
        next => exact tracks.moved before (by decide)
      next => exact tracks

end

theorem loop_tracks (mem : Mem) (deviceCfg : DeviceCfg)
    (pastCfg : List UInt8) (events : List LoopEvent) :
    Tracks (Boot.start mem deviceCfg pastCfg)
      (run loopStep (Download.start mem deviceCfg pastCfg) events) := by
  have initial : Tracks (Boot.start mem deviceCfg pastCfg)
      (Download.start mem deviceCfg pastCfg) := by
    constructor
    · intro _
      rfl
    · intro left
      cases left
  exact run_invariant initial (fun _ event tracks => tracks.step event) events

end Tp79Boot
