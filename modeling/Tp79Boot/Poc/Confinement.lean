import Tp79Boot.Poc.PacketLine

/-!
# Where packets are written

The first packet erases `eraseSize` bytes, room for 1560 packets.  The counter
itself is not bounded by that: a packet with number 1561 is written like every
other, after the end of what was erased.
-/

namespace Tp79Boot

open NorMemory EventRun

/-- The operation stays inside the area that the first packet erases. -/
def InApp : Op → Prop
  | .erase address =>
      startAddress ≤ address ∧ address + 0x800 ≤ startAddress + eraseSize
  | .program address bytes =>
      startAddress ≤ address ∧
        address + bytes.length ≤ startAddress + eraseSize

/-- Number of packets that fit the erased area. -/
def appPackets : Nat := eraseSize / 256

theorem eraseAppOps_inApp : ∀ op ∈ eraseAppOps, InApp op := by
  intro op member
  obtain ⟨page, bound, rfl⟩ := List.mem_map.mp member
  have below := List.mem_range.mp bound
  unfold InApp eraseSize
  omega

/-- The words of one packet are inside the area exactly when the packet is one
of those that fit. -/
theorem writeOps_inApp_iff (index : Nat) (data : List UInt8) :
    (∀ op ∈ writeOps (blockAddr index) data 64, InApp op) ↔
      index < appPackets := by
  have words : 64 = 256 / 4 := rfl
  constructor
  · intro inside
    have last := inside (.program (blockAddr index + 4 * 63)
      (bytesAt data (4 * 63) 4))
      (List.mem_map.mpr ⟨63, List.mem_range.mpr (by decide), rfl⟩)
    simp only [InApp, bytesAt_length] at last
    unfold blockAddr eraseSize at last
    unfold appPackets eraseSize
    omega
  · intro fits op member
    obtain ⟨turn, bound, rfl⟩ := List.mem_map.mp member
    have below := List.mem_range.mp bound
    simp only [InApp, bytesAt_length]
    unfold appPackets eraseSize at fits
    unfold blockAddr eraseSize
    omega

/-- Not a packet that passes the tests with 1560 packets counted already. -/
def Fits (boot : Boot) (event : PocEvent) : Prop :=
  ∀ line, event = .receive line → boot.packetStore.Accepts line →
    boot.pocDevice.downPackCnt.toNat < appPackets

theorem ops_inApp_iff (boot : Boot) (event : PocEvent) :
    (∀ op ∈ boot.packetStore.ops event, InApp op) ↔ Fits boot event := by
  cases event with
  | poll tick => simp [PacketStore.ops, Fits]
  | receive line =>
      by_cases accepts : boot.packetStore.Accepts line
      · have erasing : ∀ op ∈ (if boot.packetStore.eraseFlag = 0 then
            eraseAppOps else []), InApp op := by
          split
          · exact eraseAppOps_inApp
          · simp
        simp only [PacketStore.ops, if_pos accepts, List.forall_mem_append,
          PacketStore.nextBlock, writeOps_inApp_iff]
        constructor
        · rintro ⟨_, fits⟩ _ _ _
          exact fits
        · intro fits
          exact ⟨erasing, fits line rfl accepts⟩
      · simp only [PacketStore.ops, if_neg accepts, List.not_mem_nil,
          false_implies, implies_true, true_iff]
        intro other same
        cases same
        exact fun taken => absurd taken accepts

/-- Everything done to the flash so far stayed inside the area. -/
def Confined (boot : Boot) : Prop :=
  ∀ op ∈ boot.flash.log, InApp op

theorem start_confined (mem : Mem) (deviceCfg : DeviceCfg)
    (pastCfg : List UInt8) :
    Confined (Boot.start mem deviceCfg pastCfg) := by
  intro op member
  cases member

theorem pocStep_confined_iff (boot : Boot) (event : PocEvent) :
    Confined (pocStep boot event) ↔ Confined boot ∧ Fits boot event := by
  unfold Confined
  rw [pocStep_log, List.forall_mem_append, ops_inApp_iff]

/-- A run stays inside the erased area exactly when no packet passes the tests
after 1560 packets have been counted. -/
theorem packets_confined_iff (mem : Mem) (deviceCfg : DeviceCfg)
    (pastCfg : List UInt8) (events : List PocEvent) :
    Confined (run pocStep (Boot.start mem deviceCfg pastCfg) events) ↔
      Admitted pocStep Fits (Boot.start mem deviceCfg pastCfg) events :=
  run_iff_admitted (start_confined mem deviceCfg pastCfg)
    pocStep_confined_iff events

/-- After 1560 packets of zeros, the next one is written past the area. -/
theorem packets_confined_overrun :
    ¬∀ (mem : Mem) (deviceCfg : DeviceCfg) (pastCfg : List UInt8)
      (events : List PocEvent),
      Confined (run pocStep (Boot.start mem deviceCfg pastCfg) events) := by
  intro confined
  have inside := confined (fun _ => 0xFF)
    { initFlag := 0x66666666, ver := Vector.replicate 32 0 } []
    (zeroPackets 1560 ++ [.receive (zeroPacket 1560)])
  generalize fresh : Boot.start (fun _ => 0xFF)
    { initFlag := 0x66666666, ver := Vector.replicate 32 0 } [] = boot at inside
  have zero : boot.pocDevice.downPackCnt = 0 := by
    rw [← fresh]
    rfl
  have counted := zeroPackets_counted boot zero
    (show blockAddr 1560 ≤ 0x08080000 by decide)
  rw [run_concat, pocStep_confined_iff] at inside
  have accepted : (run pocStep boot (zeroPackets 1560)).packetStore.Accepts
      (zeroPacket 1560) := by
    apply zeroPacket_accepted
    · rw [Boot.packetStore_downPackCnt, counted]
    · decide
  have fits := inside.2 _ rfl accepted
  rw [counted] at fits
  exact absurd fits (by decide)

end Tp79Boot
