import Tp79Boot.Poc.PacketLine

/-!
# The written prefix

After any run the blocks below `down_pack_cnt` hold the payloads of the packets
that were counted, in order.  A block is right when its packet is counted,
because that packet has just been read back, and it stays right, because the
area is erased before the first packet and later packets go to later blocks.
-/

namespace Tp79Boot

open NorMemory EventRun

/-- The event that arrives after `before` moves the counter from `index` to
`index + 1`. -/
def Advances (start : Boot) (before : List PocEvent) (event : PocEvent)
    (index : Nat) : Prop :=
  (run pocStep start before).pocDevice.downPackCnt.toNat = index ∧
    (run pocStep start (before ++ [event])).pocDevice.downPackCnt.toNat =
      index + 1

theorem start_started (mem : Mem) (deviceCfg : DeviceCfg)
    (pastCfg : List UInt8) :
    (Boot.start mem deviceCfg pastCfg).packetStore.Started :=
  fun _ => rfl

theorem pocStep_started {boot : Boot} (started : boot.packetStore.Started)
    (event : PocEvent) : (pocStep boot event).packetStore.Started := by
  rw [pocStep_packetStore]
  cases event with
  | receive ptr => exact PacketStore.receive_started started
  | poll tick => exact started

theorem pocRun_started {start : Boot} (started : start.packetStore.Started)
    (events : List PocEvent) :
    (run pocStep start events).packetStore.Started :=
  @run_invariant _ _ pocStep start (fun boot => boot.packetStore.Started)
    started (fun _ event reached => pocStep_started reached event) events

theorem pocStep_erased {boot : Boot}
    (erased : boot.eraseFlag ≠ 0 → eraseAppOps ⊆ boot.flash.log)
    (event : PocEvent) (raised : (pocStep boot event).eraseFlag ≠ 0) :
    eraseAppOps ⊆ (pocStep boot event).flash.log := by
  have log := pocStep_log boot event
  have flag := congrArg PacketStore.eraseFlag (pocStep_packetStore boot event)
  intro op member
  rw [log]
  by_cases already : boot.eraseFlag = 0
  · cases event with
    | poll tick => exact absurd (flag.trans already) raised
    | receive line =>
        by_cases accepts : boot.packetStore.Accepts line
        · have down : boot.packetStore.eraseFlag = 0 := already
          rw [PacketStore.ops, if_pos accepts, if_pos down]
          apply List.mem_append_right
          exact List.mem_append_left _ member
        · have unchanged : (pocStep boot (.receive line)).eraseFlag =
              boot.eraseFlag := by
            rw [PacketStore.step,
              PacketStore.receive_of_not_accepts accepts] at flag
            exact flag
          exact absurd (unchanged.trans already) raised
  · exact List.mem_append_left _ (erased already member)

theorem pocRun_erased {start : Boot} (unerased : start.eraseFlag = 0)
    (events : List PocEvent)
    (raised : (run pocStep start events).eraseFlag ≠ 0) :
    eraseAppOps ⊆ (run pocStep start events).flash.log :=
  @run_invariant _ _ pocStep start
    (fun boot => boot.eraseFlag ≠ 0 → eraseAppOps ⊆ boot.flash.log)
    (fun up => absurd unerased up)
    (fun _ event erased raised => pocStep_erased erased event raised)
    events raised

/-- The counter after an event. -/
theorem pocStep_downPackCnt (boot : Boot) (event : PocEvent) :
    (pocStep boot event).pocDevice.downPackCnt.toNat =
        boot.pocDevice.downPackCnt.toNat ∨
      (pocStep boot event).pocDevice.downPackCnt.toNat =
          boot.pocDevice.downPackCnt.toNat + 1 ∧
        ∃ line, event = .receive line ∧ boot.packetStore.Accepts line ∧
          boot.packetStore.Verified line := by
  have store := congrArg (fun store : PacketStore => store.downPackCnt.toNat)
    (pocStep_packetStore boot event)
  cases event with
  | poll tick => exact .inl store
  | receive line =>
      rw [PacketStore.step, PacketStore.receive_downPackCnt] at store
      by_cases counted : boot.packetStore.Accepts line ∧
          boot.packetStore.Verified line
      · rw [if_pos counted] at store
        exact .inr ⟨store, line, rfl, counted⟩
      · rw [if_neg counted] at store
        exact .inl store

theorem Advances.line {start : Boot} {before : List PocEvent}
    {event : PocEvent} {index : Nat}
    (advances : Advances start before event index) :
    ∃ line, event = .receive line ∧
      (run pocStep start before).packetStore.Accepts line ∧
      (run pocStep start before).packetStore.Verified line := by
  obtain ⟨here, there⟩ := advances
  rw [run_concat] at there
  rcases pocStep_downPackCnt (run pocStep start before) event with
    unchanged | ⟨_, line⟩
  · omega
  · exact line

theorem exists_advances {start : Boot} {events : List PocEvent} {index : Nat}
    (fresh : start.pocDevice.downPackCnt = 0)
    (counted : index <
      (run pocStep start events).pocDevice.downPackCnt.toNat) :
    ∃ before event after, events = before ++ event :: after ∧
      Advances start before event index := by
  have unit (boot : Boot) (event : PocEvent) :
      (pocStep boot event).pocDevice.downPackCnt.toNat =
          boot.pocDevice.downPackCnt.toNat ∨
        (pocStep boot event).pocDevice.downPackCnt.toNat =
          boot.pocDevice.downPackCnt.toNat + 1 := by
    rcases pocStep_downPackCnt boot event with unchanged | ⟨raised, _⟩
    · exact .inl unchanged
    · exact .inr raised
  have low : start.pocDevice.downPackCnt.toNat ≤ index := by
    rw [fresh]
    exact Nat.zero_le index
  obtain ⟨before, event, after, split, here, there⟩ :=
    exists_crossing (fun boot : Boot => boot.pocDevice.downPackCnt.toNat)
      unit low counted
  refine ⟨before, event, after, split, here, ?_⟩
  rw [run_concat]
  exact there

theorem pocRun_keeps_block {boot : Boot} (started : boot.packetStore.Started)
    {index : Nat} (counted : index < boot.pocDevice.downPackCnt.toNat)
    (events : List PocEvent) :
    index < (run pocStep boot events).pocDevice.downPackCnt.toNat ∧
      (run pocStep boot events).packetStore.block index =
        boot.packetStore.block index := by
  induction events using List.reverseRecOn with
  | nil => exact ⟨counted, rfl⟩
  | append_singleton events last induction =>
      obtain ⟨below, kept⟩ := induction
      have reached := pocRun_started started events
      rw [run_concat]
      constructor
      · rcases pocStep_downPackCnt (run pocStep boot events) last with
          unchanged | ⟨raised, _⟩
        · omega
        · omega
      · rw [pocStep_packetStore, ← kept]
        cases last with
        | receive line => exact PacketStore.receive_keeps_block reached below
        | poll tick => rfl

theorem Advances.block {start : Boot} {before : List PocEvent}
    {line : List UInt8} {index : Nat}
    (advances : Advances start before (.receive line) index) :
    (run pocStep start (before ++ [.receive line])).packetStore.block index =
      packetData line := by
  obtain ⟨_, same, accepts, verified⟩ := advances.line
  cases same
  have counter : (run pocStep start before).packetStore.downPackCnt.toNat =
      index := advances.1
  rw [run_concat, pocStep_packetStore, PacketStore.step,
    PacketStore.receive_of_accepts accepts, ← counter]
  exact PacketStore.accept_block verified

/-- Packet `index + 1` has come and passed, and what it carries was in its
block after it was handled. -/
def PacketWritten (start : Boot) (events : List PocEvent) (index : Nat) :
    Prop :=
  ∃ before line after, events = before ++ .receive line :: after ∧
    pocLine line = .packet ∧ (packetNumber line).toNat = index + 1 ∧
    packetCrc line = calcrc (packetData line) 256 ∧
    (run pocStep start (before ++ [.receive line])).packetStore.block index =
      packetData line

theorem packetWritten_of_counted {start : Boot} {events : List PocEvent}
    {index : Nat} (fresh : start.pocDevice.downPackCnt = 0)
    (counted : index <
      (run pocStep start events).pocDevice.downPackCnt.toNat) :
    PacketWritten start events index := by
  obtain ⟨before, event, after, rfl, advances⟩ := exists_advances fresh counted
  obtain ⟨line, rfl, accepts, _⟩ := advances.line
  have number := accepts.2.2.2
  rw [Boot.packetStore_downPackCnt, advances.1] at number
  exact ⟨before, line, after, rfl, accepts.1, number, accepts.2.2.1,
    advances.block⟩

/-- After any run from power-up, with any flash contents, and for every packet
below the counter: some event of the run counted it, and whichever event did
was a packet with the next number and a right checksum whose payload is in the
packet's block now. -/
theorem counted_packets_stored (mem : Mem) (deviceCfg : DeviceCfg)
    (pastCfg : List UInt8) (events : List PocEvent) {index : Nat}
    (counted : index < (run pocStep (Boot.start mem deviceCfg pastCfg)
      events).pocDevice.downPackCnt.toNat) :
    (∃ before event after, events = before ++ event :: after ∧
      Advances (Boot.start mem deviceCfg pastCfg) before event index) ∧
    ∀ before event after, events = before ++ event :: after →
      Advances (Boot.start mem deviceCfg pastCfg) before event index →
      ∃ line, event = .receive line ∧ pocLine line = .packet ∧
        (packetNumber line).toNat = index + 1 ∧
        packetCrc line = calcrc (packetData line) 256 ∧
        flashReadForDownload (run pocStep (Boot.start mem deviceCfg pastCfg)
          events).flash (startAddress + 256 * index) 256 =
            packetData line := by
  generalize start : Boot.start mem deviceCfg pastCfg = boot at *
  have fresh : boot.pocDevice.downPackCnt = 0 := by
    rw [← start]
    rfl
  have started : boot.packetStore.Started := by
    rw [← start]
    exact start_started mem deviceCfg pastCfg
  refine ⟨exists_advances fresh counted, ?_⟩
  rintro before event after rfl advances
  obtain ⟨line, rfl, accepts, _⟩ := advances.line
  have stored := advances.block
  have here : (run pocStep boot before).packetStore.downPackCnt.toNat =
      index := advances.1
  have there := advances.2
  have reached := pocRun_started started (before ++ [.receive line])
  have split : before ++ .receive line :: after =
      (before ++ [.receive line]) ++ after := by simp
  have below : index < (run pocStep boot
      (before ++ [.receive line])).pocDevice.downPackCnt.toNat := by omega
  have kept := (pocRun_keeps_block reached below after).2
  rw [← run_append, ← split, stored] at kept
  have address : startAddress + 256 * index = blockAddr index := by
    unfold blockAddr
    omega
  refine ⟨line, rfl, accepts.1, ?_, accepts.2.2.1, ?_⟩
  · rw [← here]
    exact accepts.2.2.2
  · rw [address]
    exact kept

/-- One packet of zeros after power-up: the first block holds zeros. -/
theorem counted_packets_stored_first :
    flashReadForDownload (run pocStep (Boot.start (fun _ => 0xFF)
      { initFlag := 0x66666666, ver := Vector.replicate 32 0 } [])
      (zeroPackets 1)).flash (startAddress + 256 * 0) 256 = zeroPayload := by
  have one := zeroPackets_counted (Boot.start (fun _ => 0xFF)
    { initFlag := 0x66666666, ver := Vector.replicate 32 0 } []) rfl
    (show blockAddr 1 ≤ 0x08080000 by decide)
  have counted := Nat.lt_of_lt_of_eq Nat.zero_lt_one one.symm
  obtain ⟨⟨before, event, after, split, advances⟩, stored⟩ :=
    counted_packets_stored _ _ _ _ counted
  obtain ⟨line, rfl, _, _, _, block⟩ :=
    stored before event after split advances
  have only : [PocEvent.receive (zeroPacket 0)] =
      before ++ .receive line :: after := split
  have same : line = zeroPacket 0 := by
    rcases List.append_eq_singleton_iff.mp only.symm with
      ⟨_, here⟩ | ⟨_, nothing⟩
    · have both : line = zeroPacket 0 ∧ after = [] := by simpa using here
      exact both.1
    · simp at nothing
  rw [block, same]
  exact packetLine_data _ zeroPayload_length

end Tp79Boot
