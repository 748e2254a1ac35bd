import Tp79Boot.Poc.Completion
import Tp79Boot.Poc.Transfer
import Tp79Boot.PowerLoss

/-!
# The loop over bytes

What the boot program really meets are bytes: the interrupt handler stores
them at any time, and each turn of the loop hands over the lines that are
complete.  As long as the ring has room and no line outgrows the buffer, the
loop over bytes is the loop over lines, and the lines are those of the byte
stream.
-/

namespace Tp79Boot

open EventRun LineSplitting NumberedTransfer

/-- What happens in the boot program: a byte arrives, or `download_code_bin`
gets one step further. -/
inductive BootEvent where
  | arrive (byte : UInt8)
  | task (tick : UInt32)
  | branch
  | timeout (tick : UInt32)

structure Station where
  phase : Phase
  boot : Boot
  receiver : Receiver

def stationStep (station : Station) : BootEvent → Station
  | .arrive byte => { station with receiver := station.receiver.arrive byte }
  | .task tick =>
      if station.phase = .polling then
        { phase := .draining
          boot := (pocTask tick station.boot station.receiver).1
          receiver := (pocTask tick station.boot station.receiver).2 }
      else station
  | .branch =>
      if station.phase = .draining then
        if station.boot.pocDevice.status = .verSame then
          { station with phase := .left, boot := leaveSame station.boot }
        else if station.boot.pocDevice.status = .verDwonloadSuccess then
          { station with phase := .left, boot := leaveSuccess station.boot }
        else { station with phase := .branched }
      else station
  | .timeout tick =>
      if station.phase = .branched then
        if station.boot.pocDevice.status ≠ .verUpgrade ∧ tick > 300000 then
          { station with phase := .left, boot := leaveTimeout station.boot }
        else { station with phase := .polling }
      else station

def Station.start (mem : NorMemory.Mem) (deviceCfg : DeviceCfg)
    (pastCfg : List UInt8) : Station :=
  { phase := .polling
    boot := Boot.start mem deviceCfg pastCfg
    receiver := Receiver.start }

/-- The bytes that have arrived, in order. -/
def arrivedBytes (events : List BootEvent) : List UInt8 :=
  events.filterMap fun event =>
    match event with
    | .arrive byte => some byte
    | _ => none

/-- No byte arrives at a full ring. -/
def StationRoom (station : Station) (event : BootEvent) : Prop :=
  ∀ byte, event = .arrive byte → ¬station.receiver.ring.Full

/-- The same step over lines: a call of `poc_task` takes the lines that are
complete. -/
def lineEvents (station : Station) : BootEvent → List LoopEvent
  | .arrive _ => []
  | .task tick =>
      if station.phase = .polling then turn tick station.receiver.pendingLines
      else []
  | .branch => [.branch]
  | .timeout tick => [.timeout tick]

/-- The lines that have been handed over. -/
def handedLines (history : List PocEvent) : List (List UInt8) :=
  history.filterMap fun event =>
    match event with
    | .receive line => some line
    | .poll _ => none

theorem handedLines_append (first second : List PocEvent) :
    handedLines (first ++ second) = handedLines first ++ handedLines second :=
  List.filterMap_append

theorem handedLines_turnEvents (tick : UInt32) (lines : List (List UInt8)) :
    handedLines (turnEvents tick lines) = lines := by
  simp [handedLines, turnEvents, List.filterMap_map]

/-- Both loops are in the same place. -/
structure Agrees (station : Station) (download : Download) : Prop where
  phase : station.phase = download.phase
  boot : station.boot = download.boot

section

variable {station : Station} {download : Download}

theorem Agrees.step (agrees : Agrees station download)
    (wellFormed : station.receiver.WellFormed) (event : BootEvent) :
    Agrees (stationStep station event)
      (run loopStep download (lineEvents station event)) := by
  obtain ⟨phase, boot⟩ := agrees
  cases event with
  | arrive byte => exact ⟨phase, boot⟩
  | task tick =>
      simp only [stationStep, lineEvents]
      split
      next polling =>
        rw [run_turn tick _ (phase.symm.trans polling)]
        have drained := drain_drained pocUartMsgDeal
          (pocTaskSwitch tick station.boot) wellFormed
        refine ⟨rfl, ?_⟩
        rw [turnEvents, run_cons, pocStep, ← boot]
        refine drained.handed.trans ?_
        rw [run, List.foldl_map]
        rfl
      next => exact ⟨phase, boot⟩
  | branch =>
      simp only [stationStep, lineEvents, run_cons, run_nil, loopStep, ← phase,
        ← boot]
      split
      · split
        · exact ⟨rfl, rfl⟩
        · split
          · exact ⟨rfl, rfl⟩
          · exact ⟨rfl, rfl⟩
      · exact ⟨phase, boot⟩
  | timeout tick =>
      simp only [stationStep, lineEvents, run_cons, run_nil, loopStep, ← phase,
        ← boot]
      split
      · split
        · exact ⟨rfl, rfl⟩
        · exact ⟨rfl, rfl⟩
      · exact ⟨phase, boot⟩

/-- Only the interrupt handler and `poc_task` move the receiver. -/
theorem stationStep_receiver (station : Station) (event : BootEvent) :
    (stationStep station event).receiver =
      match event with
      | .arrive byte => station.receiver.arrive byte
      | .task tick =>
          if station.phase = .polling then
            (pocTask tick station.boot station.receiver).2
          else station.receiver
      | _ => station.receiver := by
  cases event with
  | arrive byte => rfl
  | task tick =>
      simp only [stationStep]
      split
      · rfl
      · rfl
  | branch =>
      simp only [stationStep]
      split
      · split
        · rfl
        · split
          · rfl
          · rfl
      · rfl
  | timeout tick =>
      simp only [stationStep]
      split
      · split
        · rfl
        · rfl
      · rfl

theorem stationStep_wellFormed (wellFormed : station.receiver.WellFormed)
    (event : BootEvent) :
    (stationStep station event).receiver.WellFormed := by
  rw [stationStep_receiver]
  cases event with
  | arrive byte => exact wellFormed.arrive byte
  | task tick =>
      simp only
      split
      · exact (drain_drained pocUartMsgDeal _ wellFormed).wellFormed
      · exact wellFormed
  | _ => exact wellFormed

/-- What `poc_task` hands over are the next lines of the stream, whoever deals
with them. -/
theorem Framed.handOver {stream : List UInt8} {handed : List (List UInt8)}
    {receiver next : Receiver}
    (framed : Framed collect [] stream
      { state := handed, receiver := receiver })
    (within : RunsWithin isLineEnd 1023 stream)
    (wellFormed : next.WellFormed)
    (contents : next.contents = receiver.leftover) :
    Framed collect [] stream
      { state := handed ++ receiver.pendingLines, receiver := next } := by
  have drained := drain_drained collect handed framed.wellFormed
  obtain ⟨processed, since, whole, dealt, kept⟩ := (framed.task within).2.split
  refine ⟨wellFormed, processed, since, whole, ?_, ?_⟩
  · rw [← dealt, ← foldl_collect]
    exact drained.handed.symm
  · rw [← kept]
    exact contents.trans drained.contents.symm

/-- A step over lines leaves the lines that were handed over, unless it is a
call of `poc_task`. -/
theorem lineEvents_history (agrees : Agrees station download)
    (event : BootEvent) :
    (run loopStep download (lineEvents station event)).history =
      match event with
      | .task tick =>
          if station.phase = .polling then
            download.history ++ turnEvents tick station.receiver.pendingLines
          else download.history
      | _ => download.history := by
  cases event with
  | arrive byte => rfl
  | task tick =>
      simp only [lineEvents]
      split
      next polling => rw [run_turn tick _ (agrees.phase.symm.trans polling)]
      next => rfl
  | branch =>
      simp only [lineEvents, run_cons, run_nil, loopStep]
      split
      · split
        · rfl
        · split
          · rfl
          · rfl
      · rfl
  | timeout tick =>
      simp only [lineEvents, run_cons, run_nil, loopStep]
      split
      · split
        · rfl
        · rfl
      · rfl

end

section

variable {start : Station} {first : Download} {events : List BootEvent}

theorem agrees_run (agrees : Agrees start first)
    (wellFormed : start.receiver.WellFormed) (events : List BootEvent) :
    Agrees (run stationStep start events)
      (run loopStep first (translated stationStep lineEvents start events)) := by
  have both := @run_simulates _ _ stationStep start events
    (fun _ _ => True) _ _ loopStep lineEvents
    (fun station download =>
      Agrees station download ∧ station.receiver.WellFormed) first
    ⟨agrees, wellFormed⟩
    (fun station download event related _ =>
      ⟨related.1.step related.2 event,
        stationStep_wellFormed related.2 event⟩)
    (admitted_of_forall fun _ _ _ => trivial)
  exact both.1

/-- The lines that were handed over are those of the bytes that have been
looked at; the others wait in the ring. -/
theorem framed_station (agrees : Agrees start first)
    (fresh : start.receiver = Receiver.start) (nothing : first.history = [])
    (room : Admitted stationStep StationRoom start events)
    (within : RunsWithin isLineEnd 1023 (arrivedBytes events)) :
    Framed collect [] (arrivedBytes events)
      { state := handedLines (run loopStep first
          (translated stationStep lineEvents start events)).history
        receiver := (run stationStep start events).receiver } := by
  have formed : start.receiver.WellFormed := by
    rw [fresh]
    exact start_wellFormed
  induction events using List.reverseRecOn with
  | nil =>
      refine ⟨formed, [], [], rfl, ?_, ?_⟩
      · rw [translated, run_nil, nothing]
        rfl
      · rw [run_nil, fresh]
        exact start_contents
  | append_singleton events last induction =>
      have bytes : arrivedBytes (events ++ [last]) =
          arrivedBytes events ++ arrivedBytes [last] := List.filterMap_append
      rw [bytes] at within
      have framed := induction room.of_append
        (within.of_prefix (List.prefix_append _ _))
      have here := agrees_run agrees formed events
      have admits := room.last
      rw [bytes, run_concat, translated_concat, run_append,
        lineEvents_history here, stationStep_receiver]
      generalize run stationStep start events = station
        at framed here admits ⊢
      generalize run loopStep first
        (translated stationStep lineEvents start events) = download
        at framed here ⊢
      cases last with
      | arrive byte => exact framed.arrive (admits byte rfl) byte
      | task tick =>
          have quiet : arrivedBytes [.task tick] = [] := rfl
          rw [quiet, List.append_nil] at within ⊢
          by_cases polling : station.phase = .polling
          · have drained := drain_drained pocUartMsgDeal
              (pocTaskSwitch tick station.boot) framed.wellFormed
            simp only [if_pos polling, handedLines_append,
              handedLines_turnEvents]
            exact framed.handOver within drained.wellFormed drained.contents
          · simp only [if_neg polling]
            exact framed
      | branch =>
          have quiet : arrivedBytes [.branch] = [] := rfl
          rw [quiet, List.append_nil]
          exact framed
      | timeout tick =>
          have quiet : arrivedBytes [.timeout tick] = [] := rfl
          rw [quiet, List.append_nil]
          exact framed

end

/-- From power-up and while the ring has room and lines are short, the loop
over bytes stands where the loop over lines stands, and the lines are those of
the bytes: what is not yet handed over waits in the ring. -/
theorem bytes_refine_lines (mem : NorMemory.Mem) (deviceCfg : DeviceCfg)
    (pastCfg : List UInt8) (events : List BootEvent)
    (room : Admitted stationStep StationRoom
      (Station.start mem deviceCfg pastCfg) events)
    (within : RunsWithin isLineEnd 1023 (arrivedBytes events))
    {station : Station} {download : Download}
    (bytes : station =
      run stationStep (Station.start mem deviceCfg pastCfg) events)
    (lines : download = run loopStep (Download.start mem deviceCfg pastCfg)
      (translated stationStep lineEvents
        (Station.start mem deviceCfg pastCfg) events)) :
    station.phase = download.phase ∧ station.boot = download.boot ∧
      ∃ processed since, arrivedBytes events = processed ++ since ∧
        handedLines download.history =
          deliveries (segments isLineEnd processed) ∧
        station.receiver.contents =
          unfinished isLineEnd processed ++ since := by
  have agrees : Agrees (Station.start mem deviceCfg pastCfg)
      (Download.start mem deviceCfg pastCfg) := ⟨rfl, rfl⟩
  have here := agrees_run agrees start_wellFormed events
  have framed := framed_station agrees rfl rfl room within
  rw [← bytes, ← lines] at here framed
  obtain ⟨processed, since, whole, dealt, contents⟩ := framed.split
  rw [foldl_collect, List.nil_append] at dealt
  exact ⟨here.phase, here.boot, processed, since, whole, dealt, contents⟩

/-- As many bytes as the ring can hold find room before the first call, and
wait in it. -/
theorem arrivals_room (mem : NorMemory.Mem) (deviceCfg : DeviceCfg)
    (pastCfg : List UInt8) {bytes : List UInt8} (few : bytes.length ≤ 2047) :
    Admitted stationStep StationRoom (Station.start mem deviceCfg pastCfg)
        (bytes.map .arrive) ∧
      (run stationStep (Station.start mem deviceCfg pastCfg)
        (bytes.map .arrive)).receiver.contents = bytes := by
  induction bytes using List.reverseRecOn with
  | nil => exact ⟨admitted_nil, start_contents⟩
  | append_singleton bytes last induction =>
      rw [List.length_append, List.length_singleton] at few
      obtain ⟨admitted, contents⟩ := induction (Nat.le_of_succ_le few)
      rw [List.map_append, List.map_singleton, admitted_concat, run_concat]
      generalize run stationStep (Station.start mem deviceCfg pastCfg)
        (bytes.map .arrive) = station at contents ⊢
      have room : ¬station.receiver.ring.Full := by
        have size : uartRxbufLenMax = 2048 := rfl
        rw [RingBuffer.full_iff, ← Receiver.contents_length, contents]
        omega
      refine ⟨⟨admitted, fun _ _ => room⟩, ?_⟩
      exact (Receiver.arrive_contents room last).trans
        (congrArg (· ++ [last]) contents)

/-- A packet arrives before the first call. -/
def packetBytes : List UInt8 :=
  zeroPacket 0 ++ [13]

def packetEvents : List BootEvent :=
  packetBytes.map .arrive ++ [.task 0]

theorem packetEvents_arrived : arrivedBytes packetEvents = packetBytes := by
  have task : arrivedBytes [.task 0] = [] := rfl
  have bytes : arrivedBytes (packetBytes.map .arrive) = packetBytes := by
    rw [arrivedBytes, List.filterMap_map]
    exact List.filterMap_some
  rw [packetEvents, arrivedBytes, List.filterMap_append, ← arrivedBytes,
    ← arrivedBytes, task, bytes, List.append_nil]

theorem packetBytes_length : packetBytes.length = 541 := by
  have header : (ascii "+POC:430300000").length = 14 := rfl
  have filler : (ascii "000000").length = 6 := rfl
  simp only [packetBytes, zeroPacket, packetLine, List.length_append,
    hexChars_length, List.length_cons, List.length_nil, zeroPayload_length,
    header, filler]

theorem packetEvents_room :
    Admitted stationStep StationRoom
      (Station.start (fun _ => 0xFF) installedCfg []) packetEvents := by
  have few : packetBytes.length ≤ 2047 := by
    rw [packetBytes_length]
    decide
  rw [packetEvents, admitted_concat]
  exact ⟨(arrivals_room _ _ _ few).1, fun byte other => by cases other⟩

theorem packetEvents_within :
    RunsWithin isLineEnd 1023 (arrivedBytes packetEvents) := by
  rw [packetEvents_arrived]
  apply runsWithin_of_length_le
  rw [packetBytes_length]
  decide

theorem bytes_refine_lines_packet :
    ∃ processed since, arrivedBytes packetEvents = processed ++ since ∧
      handedLines (run loopStep
        (Download.start (fun _ => 0xFF) installedCfg [])
        (translated stationStep lineEvents
          (Station.start (fun _ => 0xFF) installedCfg [])
            packetEvents)).history =
        deliveries (segments isLineEnd processed) ∧
      (run stationStep (Station.start (fun _ => 0xFF) installedCfg [])
        packetEvents).receiver.contents =
          unfinished isLineEnd processed ++ since := by
  have refines := bytes_refine_lines (fun _ => 0xFF) installedCfg []
    packetEvents packetEvents_room packetEvents_within rfl rfl
  exact refines.2.2

theorem packetDeliveries_eq (history : List PocEvent) :
    packetDeliveries history =
      (handedLines history).filterMap packetDelivery := by
  rw [packetDeliveries, handedLines, List.filterMap_filterMap]
  apply List.filterMap_congr
  intro event _
  cases event with
  | receive line => rfl
  | poll tick => rfl

/-- Whatever bytes arrive, and whatever the loop has come to: as long as the
intact packets in the byte stream are those of one image, the counted blocks
are the front of the image, and they stand in flash. -/
theorem bytes_transfer (mem : NorMemory.Mem) (deviceCfg : DeviceCfg)
    (pastCfg : List UInt8) (events : List BootEvent)
    (room : Admitted stationStep StationRoom
      (Station.start mem deviceCfg pastCfg) events)
    (within : RunsWithin isLineEnd 1023 (arrivedBytes events))
    {image : List (List UInt8)} (fits : image.length ≤ 1560)
    (genuine : Genuine image
      ((deliveries (segments isLineEnd (arrivedBytes events))).filterMap
        packetDelivery)) :
    (run stationStep (Station.start mem deviceCfg pastCfg)
      events).boot.packetStore.received <+: image := by
  have agrees : Agrees (Station.start mem deviceCfg pastCfg)
      (Download.start mem deviceCfg pastCfg) := ⟨rfl, rfl⟩
  have here := agrees_run agrees start_wellFormed events
  have framed := framed_station agrees rfl rfl room within
  have tracks := loop_tracks mem deviceCfg pastCfg
    (translated stationStep lineEvents
      (Station.start mem deviceCfg pastCfg) events)
  obtain ⟨processed, since, whole, dealt, _⟩ := framed.split
  rw [foldl_collect, List.nil_append] at dealt
  rw [here.boot]
  generalize run loopStep (Download.start mem deviceCfg pastCfg) _ = download
    at dealt tracks ⊢
  have front : Genuine image (packetDeliveries download.history) := by
    have handed : handedLines download.history =
        deliveries (segments isLineEnd processed) := dealt
    rw [packetDeliveries_eq, handed]
    intro delivery member
    apply genuine
    rw [whole, segments_append, deliveries_append, List.filterMap_append]
    exact List.mem_append_left _ member
  have refined := @transfer_refines (Boot.start mem deviceCfg pastCfg) image
    rfl (start_started mem deviceCfg pastCfg)
    (start_blankAhead mem deviceCfg pastCfg) fits download.history front
  have received := receive_front front
  rw [← refined] at received
  by_cases left : download.phase = .left
  · have leaving := tracks.outside left
    have count := received.length_le
    rw [PacketStore.received_length, Boot.packetStore_downPackCnt] at count
    rw [leaving.received (by omega)]
    exact received
  · rw [tracks.inside left]
    exact received

theorem byteAt_padded (line : List UInt8) (place : Nat) :
    byteAt (padded line) place = byteAt line place :=
  byteAt_append_zeros line _ place

theorem packetDelivery_padded (line : List UInt8) :
    packetDelivery (padded line) = packetDelivery line := by
  have read (skip count : Nat) : strToHex ((padded line).drop skip) count =
      strToHex (line.drop skip) count := by
    simp only [strToHex, byteAt_drop, byteAt_padded]
  have compared (text : List UInt8) (count : Nat) :
      memcmpEq (padded line) 0 text count ↔ memcmpEq line 0 text count := by
    simp only [memcmpEq, bytesAt, byteAt_padded]
  have kind : pocLine (padded line) = pocLine line := by
    simp only [pocLine, compared]
  have length : strlen (padded line) = strlen line :=
    strlen_append_zeros line _
  have intact : IntactPacket (padded line) ↔ IntactPacket line := by
    simp only [IntactPacket, packetData, packetCrc, read, kind, length]
  simp only [packetDelivery, packetData, packetNumber, read, intact]

theorem packetLine_open (number : UInt16) (payload : List UInt8) :
    Open isLineEnd (packetLine number payload) := by
  have bare {text : List UInt8} (none : text.all fun byte => !isLineEnd byte) :
      ∀ byte ∈ text, isLineEnd byte = false := by
    simpa using none
  apply forall_mem_packetLine
  · intro bytes byte member
    obtain ⟨_, notFeed, notReturn⟩ := hexChars_printable member
    simp [isLineEnd, notFeed, notReturn]
  · exact bare (by decide)
  · exact bare (by decide)

theorem packetBytes_deliveries :
    (deliveries (segments isLineEnd packetBytes)).filterMap packetDelivery =
      [(zeroPayload, 1)] := by
  have long : 2 ≤ (zeroPacket 0).length := by
    have length := packetBytes_length
    rw [packetBytes, List.length_append, List.length_singleton] at length
    omega
  have closes : isLineEnd 13 = true := rfl
  have line : segments isLineEnd packetBytes = [zeroPacket 0] :=
    segments_line (packetLine_open 1 zeroPayload) closes []
  have one : deliveries [zeroPacket 0] = [padded (zeroPacket 0)] := by
    simp [deliveries, long]
  have delivery : packetDelivery (zeroPacket 0) = some (zeroPayload, 1) :=
    packetDelivery_packetLine 1 zeroPayload_length
  rw [line, one, List.filterMap_cons, packetDelivery_padded, delivery,
    List.filterMap_nil]

/-- The packet is a delivery, and nothing but its payload is received. -/
theorem bytes_transfer_packet :
    (deliveries (segments isLineEnd
        (arrivedBytes packetEvents))).filterMap packetDelivery =
          [(zeroPayload, 1)] ∧
      (run stationStep (Station.start (fun _ => 0xFF) installedCfg [])
        packetEvents).boot.packetStore.received <+: [zeroPayload] := by
  have delivered := packetBytes_deliveries
  rw [← packetEvents_arrived] at delivered
  refine ⟨delivered, ?_⟩
  apply bytes_transfer _ _ _ _ packetEvents_room packetEvents_within (by decide)
  intro delivery member
  rw [delivered, List.mem_singleton] at member
  rw [member]
  exact List.mem_cons_self

end Tp79Boot
