import Tp79Boot.Poc.Gating
import Tp79Boot.Poc.LineCopies
import Tp79Boot.Poc.LineFraming

/-!
# Reporting success

`poc_task` sets `POC_DEVICE_VER_DWONLOAD_SUCCESS` and then, in the same call,
handles the lines that are waiting in the ring.  Its caller sees the success
only if none of them sets another status.  In the linked image the status lies
behind `buf_temp_deal`, so a line that outgrows this buffer overwrites it too.
-/

namespace Tp79Boot

open EventRun LineSplitting

/-- `poc_task`: the status switch, then the lines in the ring. -/
def pocTask (tick : UInt32) (boot : Boot) (receiver : Receiver) :
    Boot × Receiver :=
  drain pocUartMsgDeal (pocTaskSwitch tick boot) receiver

/-- A line that sets the status whatever it was: one that leaves an upgrade, or
`+POC:4302`. -/
def SetsStatus (boot : Boot) (ptr : List UInt8) : Prop :=
  LeavesUpgrade boot ptr ∨ pocLine ptr = .downloaded

theorem setsStatus_congr {first second : Boot}
    (sameCfg : first.cfgVer = second.cfgVer) (ptr : List UInt8) :
    SetsStatus first ptr ↔ SetsStatus second ptr := by
  unfold SetsStatus LeavesUpgrade SameModel
  rw [sameCfg]

theorem landStatus_success (status : PocStatus) (ptr : List UInt8) :
    landStatus status ptr = .verDwonloadSuccess ↔
      status = .verDwonloadSuccess ∧ ¬(memcmpEq ptr 7 (ascii "02") 2 ∨
        memcmpEq ptr 7 (ascii "01") 2) := by
  unfold landStatus
  by_cases success : memcmpEq ptr 7 (ascii "02") 2
  · simp [success]
  · by_cases landing : memcmpEq ptr 7 (ascii "01") 2
    · simp [success, landing]
    · simp [success, landing]

theorem lineStatus_success_iff (boot : Boot) (ptr : List UInt8) :
    lineStatus boot ptr = .verDwonloadSuccess ↔
      boot.pocDevice.status = .verDwonloadSuccess ∧ ¬SetsStatus boot ptr := by
  unfold lineStatus SetsStatus LeavesUpgrade
  cases kind : pocLine ptr with
  | ok => cases status : boot.pocDevice.status <;> simp [okStatus]
  | land => simp [landStatus_success]
  | version =>
      by_cases model : SameModel boot ptr
      · by_cases version : SameVersion boot ptr
        · simp [model, version]
        · simp [model, version]
      · simp [model]
  | _ => simp

theorem dealt_success_iff (boot : Boot) (lines : List (List UInt8)) :
    (lines.foldl pocUartMsgDeal boot).pocDevice.status =
        .verDwonloadSuccess ↔
      boot.pocDevice.status = .verDwonloadSuccess ∧
        ∀ line ∈ lines, ¬SetsStatus boot line := by
  induction lines generalizing boot with
  | nil => simp
  | cons line lines induction =>
      have effect := pocUartMsgDeal_effect boot line
      have cfgVer := pocStep_cfgVer boot (.receive line)
      have later : (∀ other ∈ lines,
          ¬SetsStatus (pocUartMsgDeal boot line) other) ↔
            ∀ other ∈ lines, ¬SetsStatus boot other :=
        forall₂_congr fun other _ => (setsStatus_congr cfgVer other).not
      rw [List.foldl_cons, induction, later, effect.status,
        lineStatus_success_iff, List.forall_mem_cons, and_assoc]

/-- Every line that the call copies stays in `buf_temp_deal` with a zero after
it, and the call returns with success. -/
def ReportsSuccess (tick : UInt32) (boot : Boot) (receiver : Receiver) : Prop :=
  SafeCall pocUartMsgDeal (pocTaskSwitch tick boot) receiver ∧
    (pocTask tick boot receiver).1.pocDevice.status = .verDwonloadSuccess

/-- When the download is complete, the caller of `poc_task` learns of it
exactly when every line that waits in the ring fits the buffer and none sets the
status. -/
theorem success_reported_iff (tick : UInt32) (boot : Boot)
    (receiver : Receiver) (wellFormed : receiver.WellFormed)
    (upgrade : boot.pocDevice.status = .verUpgrade)
    (finished : boot.pocDevice.packSum ≤ boot.pocDevice.downPackCnt) :
    ReportsSuccess tick boot receiver ↔
      receiver.LinesFit ∧
        ∀ line ∈ receiver.pendingLines, ¬SetsStatus boot line := by
  have safe := safeCall_iff pocUartMsgDeal (pocTaskSwitch tick boot) wellFormed
  have drained := drain_drained pocUartMsgDeal (pocTaskSwitch tick boot)
    wellFormed
  have cfgVer := pocStep_cfgVer boot (.poll tick)
  have success := @pocTaskSwitch_finished tick boot upgrade finished
  rw [ReportsSuccess, safe, pocTask, drained.handed, dealt_success_iff]
  simp only [success, true_and]
  apply and_congr_right'
  exact forall₂_congr fun line _ => (setsStatus_congr cfgVer line).not

/-- The packet has arrived, and then its announcement. -/
def finishedBoot : Boot :=
  run pocStep (Boot.start (fun _ => 0xFF) installedCfg [])
    (zeroPackets 1 ++ [.receive onePacket])

theorem finishedBoot_upgrade : finishedBoot.pocDevice.status = .verUpgrade := by
  have announced : pocLine onePacket = .downloaded := by decide
  rw [finishedBoot, run_concat, pocStep, pocUartMsgDeal_downloaded _ announced]
  rfl

theorem finishedBoot_finished :
    finishedBoot.pocDevice.packSum ≤ finishedBoot.pocDevice.downPackCnt := by
  have announced : pocLine onePacket = .downloaded := by decide
  have one : (announcedSum onePacket).toNat = 1 := by decide
  have counted := zeroPackets_counted
    (Boot.start (fun _ => 0xFF) installedCfg []) rfl
    (show blockAddr 1 ≤ 0x08080000 by decide)
  rw [finishedBoot, run_concat, pocStep, pocUartMsgDeal_downloaded _ announced]
  apply dealDownloaded_finished
  rw [UInt16.le_iff_toNat_le, one, counted]

theorem run_arrivals_receiver {text : List UInt8} (short : text.length ≤ 1023)
    {receiver : Receiver}
    (received : receiver = (run (uartStep collect) (Session.start [])
      (text.map .arrive)).receiver) :
    receiver.WellFormed ∧ receiver.LinesFit ∧
      receiver.pendingLines = deliveries (segments isLineEnd text) := by
  have wellFormed := run_wellFormed collect [] (text.map .arrive)
  have contents := run_arrivals_contents collect []
    (show text.length ≤ 2047 by omega)
  rw [← received] at wellFormed contents
  have within : RunsWithin isLineEnd 1023 receiver.contents := by
    rw [contents]
    exact runsWithin_of_length_le short
  refine ⟨wellFormed, Receiver.linesFit_of_within within, ?_⟩
  rw [Receiver.pendingLines_eq within, contents]

/-- An `OK` that is waiting in the ring leaves the success alone. -/
theorem success_reported_ok :
    ReportsSuccess 0 finishedBoot (run (uartStep collect) (Session.start [])
      ((ascii "OK\r").map .arrive)).receiver := by
  obtain ⟨wellFormed, fits, lines⟩ := @run_arrivals_receiver (ascii "OK\r")
    (by decide) _ rfl
  refine (success_reported_iff 0 finishedBoot _ wellFormed
    finishedBoot_upgrade finishedBoot_finished).mpr ⟨fits, ?_⟩
  have one : deliveries (segments isLineEnd (ascii "OK\r")) =
      [padded (ascii "OK")] := rfl
  rw [lines, one, List.forall_mem_singleton]
  have kind : pocLine (padded (ascii "OK")) = .ok := by decide
  simp [SetsStatus, LeavesUpgrade, kind]

/-- A login notice that is waiting in the ring hides the success. -/
theorem success_reported_hidden :
    ¬∀ (tick : UInt32) (boot : Boot) (events : List UartEvent),
      (run (uartStep collect) (Session.start []) events).receiver.LinesFit →
      boot.pocDevice.status = .verUpgrade →
      boot.pocDevice.packSum ≤ boot.pocDevice.downPackCnt →
      (pocTask tick boot (run (uartStep collect) (Session.start [])
        events).receiver).1.pocDevice.status = .verDwonloadSuccess := by
  intro reported
  have received := @run_arrivals_receiver (ascii "+POC:8202\r") (by decide)
  have success := reported 0 finishedBoot
    ((ascii "+POC:8202\r").map .arrive) (received rfl).2.1
    finishedBoot_upgrade finishedBoot_finished
  generalize (run (uartStep collect) (Session.start [])
    ((ascii "+POC:8202\r").map .arrive)).receiver = receiver at *
  obtain ⟨wellFormed, _, lines⟩ := @received receiver rfl
  have one : deliveries (segments isLineEnd (ascii "+POC:8202\r")) =
      [padded (ascii "+POC:8202")] := rfl
  have kind : pocLine (padded (ascii "+POC:8202")) = .land := by decide
  have login : memcmpEq (padded (ascii "+POC:8202")) 7 (ascii "02") 2 := by
    decide
  have drained := drain_drained pocUartMsgDeal (pocTaskSwitch 0 finishedBoot)
    wellFormed
  rw [pocTask, drained.handed, dealt_success_iff, lines, one] at success
  exact success.2 _ List.mem_cons_self (.inl (.inl ⟨kind, .inl login⟩))

end Tp79Boot
