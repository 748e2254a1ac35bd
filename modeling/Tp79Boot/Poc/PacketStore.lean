import Tp79Boot.Lib.EventRun
import Tp79Boot.Poc.Task

/-!
# The packet store

Seen from the flash, the boot program is a store of numbered blocks: a counter,
the erase flag and the flash itself.  Received lines act on it through the
packet handler alone and the status switch not at all, so what a run leaves in
flash is proved here once, whatever the status does meanwhile.
-/

namespace Tp79Boot

open NorMemory EventRun

/-- What happens to the protocol: a line is handed to `poc_uart_msg_deal`, or
the status switch runs at some tick. -/
inductive PocEvent where
  | receive (ptr : List UInt8)
  | poll (tick : UInt32)

def pocStep (boot : Boot) : PocEvent → Boot
  | .receive ptr => pocUartMsgDeal boot ptr
  | .poll tick => pocTaskSwitch tick boot

structure PacketStore where
  downPackCnt : UInt16
  eraseFlag : UInt8
  flash : Flash

def Boot.packetStore (boot : Boot) : PacketStore :=
  { downPackCnt := boot.pocDevice.downPackCnt
    eraseFlag := boot.eraseFlag
    flash := boot.flash }

@[simp] theorem Boot.packetStore_downPackCnt (boot : Boot) :
    boot.packetStore.downPackCnt = boot.pocDevice.downPackCnt := rfl

def eraseAppOps : List Op := eraseOps startAddress 195

theorem eraseApp_eq (flash : Flash) :
    eraseApp flash = flash.execAll stm32f103ve eraseAppOps := by
  have erased := flashErase_eq flash startAddress
    (show eraseSize / 0x800 < 256 by decide)
  simp only [eraseApp, erased]
  rfl

theorem eraseApp_mem (flash : Flash) (target : Nat) :
    (eraseApp flash).mem target =
      if stm32f103ve.Contains target ∧ startAddress ≤ target ∧
          target < startAddress + eraseSize
      then 0xFF else flash.mem target := by
  have aligned : 0x800 ∣ startAddress := by decide
  have whole : 195 * 0x800 = eraseSize := rfl
  rw [eraseApp_eq, Device.execAll_mem, eraseAppOps, replay_eraseOps aligned,
    whole]

namespace PacketStore

section

variable (store : PacketStore) (ptr : List UInt8)

/-- The line is a packet that passes the tests. -/
def Accepts : Prop :=
  pocLine ptr = .packet ∧ PacketPasses store.downPackCnt ptr

instance : Decidable (store.Accepts ptr) :=
  inferInstanceAs (Decidable (_ ∧ _))

def nextBlock : Nat := blockAddr store.downPackCnt.toNat

def prepared : Flash :=
  if store.eraseFlag = 0 then eraseApp store.flash else store.flash

def written : Flash :=
  flashWrite store.prepared store.nextBlock (packetData ptr) 256

/-- What is read back is what was sent. -/
abbrev Verified : Prop :=
  memcmpEq (flashReadForDownload (store.written ptr) store.nextBlock 256) 0
    (packetData ptr) 256

def accept : PacketStore :=
  { downPackCnt :=
      if store.Verified ptr then store.downPackCnt + 1 else store.downPackCnt
    eraseFlag := if store.eraseFlag = 0 then 1 else store.eraseFlag
    flash := store.written ptr }

def receive : PacketStore :=
  if store.Accepts ptr then store.accept ptr else store

/-- The 256 bytes in the place of packet `index + 1`. -/
def block (index : Nat) : List UInt8 :=
  flashReadForDownload store.flash (blockAddr index) 256

end

/-- No packet is counted before the area has been erased. -/
def Started (store : PacketStore) : Prop :=
  store.eraseFlag = 0 → store.downPackCnt = 0

variable {store : PacketStore} {ptr : List UInt8}

theorem receive_of_accepts (accepts : store.Accepts ptr) :
    store.receive ptr = store.accept ptr :=
  if_pos accepts

theorem receive_of_not_accepts (refuses : ¬store.Accepts ptr) :
    store.receive ptr = store :=
  if_neg refuses

theorem accept_eraseFlag : (store.accept ptr).eraseFlag ≠ 0 := by
  simp only [accept]
  split
  · decide
  next raised => exact raised

theorem downPackCnt_succ (accepts : store.Accepts ptr) :
    (store.downPackCnt + 1).toNat = store.downPackCnt.toNat + 1 := by
  have number := accepts.2.2.2
  have below := (packetNumber ptr).toNat_lt
  have one : (1 : UInt16).toNat = 1 := rfl
  rw [UInt16.toNat_add, one]
  exact Nat.mod_eq_of_lt (by omega)

theorem accept_downPackCnt (accepts : store.Accepts ptr) :
    (store.accept ptr).downPackCnt.toNat =
      if store.Verified ptr then store.downPackCnt.toNat + 1
      else store.downPackCnt.toNat := by
  simp only [accept]
  split
  · exact downPackCnt_succ accepts
  · rfl

/-- The counter stays or goes up by one, and it goes up only for a verified
packet that passed. -/
theorem receive_downPackCnt (store : PacketStore) (ptr : List UInt8) :
    (store.receive ptr).downPackCnt.toNat =
      if store.Accepts ptr ∧ store.Verified ptr
      then store.downPackCnt.toNat + 1 else store.downPackCnt.toNat := by
  by_cases accepts : store.Accepts ptr
  · rw [receive_of_accepts accepts, accept_downPackCnt accepts]
    simp only [accepts, true_and]
  · rw [receive_of_not_accepts accepts, if_neg (fun both => accepts both.1)]

theorem receive_started (started : store.Started) :
    (store.receive ptr).Started := by
  intro flag
  by_cases accepts : store.Accepts ptr
  · rw [receive_of_accepts accepts] at flag
    exact absurd flag accept_eraseFlag
  · rw [receive_of_not_accepts accepts] at flag ⊢
    exact started flag

theorem written_mem (store : PacketStore) (ptr : List UInt8) (target : Nat) :
    (store.written ptr).mem target =
      if stm32f103ve.Contains target ∧ store.nextBlock ≤ target ∧
          target < store.nextBlock + 256
      then store.prepared.mem target &&&
        byteAt (packetData ptr) (target - store.nextBlock)
      else store.prepared.mem target :=
  flashWrite_mem _ _ _ (by decide) target

theorem block_congr {first second : PacketStore} {index : Nat}
    (same : ∀ place, place < 256 →
      first.flash.mem (blockAddr index + place) =
        second.flash.mem (blockAddr index + place)) :
    first.block index = second.block index := by
  unfold block flashReadForDownload
  apply List.map_congr_left
  intro place member
  exact same place (List.mem_range.mp member)

theorem accept_block (verified : store.Verified ptr) :
    (store.accept ptr).block store.downPackCnt.toNat = packetData ptr := by
  have length : (packetData ptr).length = 256 := by simp [packetData]
  apply (eq_iff_byteAt (by simp [block, length])).mpr
  intro index bound
  have entry := bytesAt_eq_iff.mp verified index (length ▸ bound)
  rw [Nat.zero_add] at entry
  exact entry

/-- A packet leaves the blocks before its own alone. -/
theorem accept_keeps_block (started : store.Started) {index : Nat}
    (earlier : index < store.downPackCnt.toNat) :
    (store.accept ptr).block index = store.block index := by
  have raised : store.eraseFlag ≠ 0 := by
    intro flag
    rw [started flag] at earlier
    exact absurd earlier (Nat.not_lt_zero index)
  apply block_congr
  intro place bound
  have outside : ¬(stm32f103ve.Contains (blockAddr index + place) ∧
      store.nextBlock ≤ blockAddr index + place ∧
        blockAddr index + place < store.nextBlock + 256) := by
    unfold nextBlock blockAddr
    omega
  have unwritten := written_mem store ptr (blockAddr index + place)
  rw [if_neg outside, prepared, if_neg raised] at unwritten
  exact unwritten

theorem receive_keeps_block (started : store.Started) {index : Nat}
    (earlier : index < store.downPackCnt.toNat) :
    (store.receive ptr).block index = store.block index := by
  by_cases accepts : store.Accepts ptr
  · rw [receive_of_accepts accepts]
    exact accept_keeps_block started earlier
  · rw [receive_of_not_accepts accepts]

end PacketStore

theorem dealPacket_packetStore (boot : Boot) (ptr : List UInt8) :
    (dealPacket boot ptr).packetStore =
      if PacketPasses boot.pocDevice.downPackCnt ptr
      then boot.packetStore.accept ptr else boot.packetStore := by
  unfold dealPacket
  split
  · simp only [Boot.packetStore, PacketStore.accept, PacketStore.Verified,
      PacketStore.written, PacketStore.prepared, PacketStore.nextBlock]
    congr
  · rfl

theorem dealVersion_packetStore (boot : Boot) (ptr : List UInt8) :
    (dealVersion boot ptr).packetStore = boot.packetStore := by
  unfold dealVersion
  split
  · split
    · rfl
    · rfl
  · rfl

theorem pocUartMsgDeal_packetStore (boot : Boot) (ptr : List UInt8) :
    (pocUartMsgDeal boot ptr).packetStore = boot.packetStore.receive ptr := by
  have notPacket (other : pocLine ptr ≠ .packet) :
      boot.packetStore.receive ptr = boot.packetStore :=
    PacketStore.receive_of_not_accepts (fun accepts => other accepts.1)
  unfold pocUartMsgDeal
  cases kind : pocLine ptr with
  | packet =>
      simp only [dealPacket_packetStore, PacketStore.receive,
        PacketStore.Accepts, kind, true_and]
      exact if_congr Iff.rfl rfl rfl
  | version =>
      rw [notPacket (by simp [kind])]
      exact dealVersion_packetStore boot ptr
  | _ => exact (notPacket (by simp [kind])).symm

theorem pocUartMsgDeal_eraseFlag {boot : Boot} {ptr : List UInt8}
    (accepts : boot.packetStore.Accepts ptr) :
    (pocUartMsgDeal boot ptr).eraseFlag ≠ 0 := by
  have store := pocUartMsgDeal_packetStore boot ptr
  rw [PacketStore.receive_of_accepts accepts] at store
  have flag := congrArg PacketStore.eraseFlag store
  intro zero
  exact PacketStore.accept_eraseFlag (flag.symm.trans zero)

theorem pocTaskSwitch_packetStore (tick : UInt32) (boot : Boot) :
    (pocTaskSwitch tick boot).packetStore = boot.packetStore := by
  have requests := pocTaskSwitch_onlyRequests tick boot
  simp only [Boot.packetStore, requests.pocDevice, requests.eraseFlag,
    requests.flash]
  rfl

/-- What an event does to the store. -/
def PacketStore.step (store : PacketStore) : PocEvent → PacketStore
  | .receive ptr => store.receive ptr
  | .poll _ => store

theorem pocStep_packetStore (boot : Boot) (event : PocEvent) :
    (pocStep boot event).packetStore = boot.packetStore.step event := by
  cases event with
  | receive ptr => exact pocUartMsgDeal_packetStore boot ptr
  | poll tick => exact pocTaskSwitch_packetStore tick boot

/-- The operations of one event. -/
def PacketStore.ops (store : PacketStore) : PocEvent → List Op
  | .receive line =>
      if store.Accepts line then
        (if store.eraseFlag = 0 then eraseAppOps else []) ++
          writeOps store.nextBlock (packetData line) 64
      else []
  | .poll _ => []

theorem PacketStore.prepared_log (store : PacketStore) :
    store.prepared.log =
      store.flash.log ++ (if store.eraseFlag = 0 then eraseAppOps else []) := by
  unfold prepared
  split
  · rw [eraseApp_eq, Device.execAll_log]
  · exact (List.append_nil _).symm

theorem pocStep_log (boot : Boot) (event : PocEvent) :
    (pocStep boot event).flash.log =
      boot.flash.log ++ boot.packetStore.ops event := by
  have store := congrArg (fun store : PacketStore => store.flash.log)
    (pocStep_packetStore boot event)
  cases event with
  | poll tick => exact store.trans (List.append_nil _).symm
  | receive line =>
      refine store.trans ?_
      by_cases accepts : boot.packetStore.Accepts line
      · simp only [PacketStore.step, PacketStore.ops, if_pos accepts,
          PacketStore.receive_of_accepts accepts, PacketStore.accept,
          PacketStore.written, flashWrite_eq, Device.execAll_log,
          PacketStore.prepared_log, List.append_assoc]
        rfl
      · simp only [PacketStore.step, PacketStore.ops, if_neg accepts,
          PacketStore.receive_of_not_accepts accepts, List.append_nil]
        rfl

end Tp79Boot
