import Tp79Boot.Poc.Status

/-!
# Lines received twice

A line that arrives twice in a row does nothing the second time.  A packet that
was counted no longer has the next number; one that was not read back is
programmed again, which clears the bits that are already clear.
-/

namespace Tp79Boot

open NorMemory

/-- Equal but for the texts that were sent and the operations that led to the
contents of the flash. -/
structure SameState (first second : Boot) : Prop where
  pocDevice : first.pocDevice = second.pocDevice
  eraseFlag : first.eraseFlag = second.eraseFlag
  mem : first.flash.mem = second.flash.mem

theorem SameState.refl (boot : Boot) : SameState boot boot :=
  ⟨rfl, rfl, rfl⟩

theorem okStatus_again (status : PocStatus) :
    okStatus (okStatus status) = okStatus status := by
  cases status <;> rfl

theorem landStatus_again (status : PocStatus) (ptr : List UInt8) :
    landStatus (landStatus status ptr) ptr = landStatus status ptr := by
  unfold landStatus
  split
  · rfl
  · split
    · rfl
    · rfl

theorem announcedVer_again (serverSoftVer : Vector UInt8 32)
    (ptr : List UInt8) :
    announcedVer (announcedVer serverSoftVer ptr) ptr =
      announcedVer serverSoftVer ptr := by
  apply Vector.ext
  intro index bound
  rw [announcedVer_getElem, announcedVer_getElem]

theorem memcpyField_again {size : Nat} (field : Vector UInt8 size)
    (source : List UInt8) (count : Nat) :
    memcpyField (memcpyField field source count) source count =
      memcpyField field source count := by
  apply Vector.ext
  intro index bound
  simp only [memcpyField_getElem]
  split
  · rfl
  · rfl

theorem dealVersion_again (boot : Boot) (ptr : List UInt8) :
    SameState (dealVersion (dealVersion boot ptr) ptr)
      (dealVersion boot ptr) := by
  have config : (dealVersion boot ptr).cfgVer = boot.cfgVer := by
    unfold dealVersion
    split
    · split
      · rfl
      · rfl
    · rfl
  have sameModel : SameModel (dealVersion boot ptr) ptr ↔ SameModel boot ptr := by
    simp only [SameModel, config]
  have sameVersion : SameVersion (dealVersion boot ptr) ptr ↔
      SameVersion boot ptr := by
    simp only [SameVersion, config]
  by_cases model : SameModel boot ptr
  · rw [dealVersion, if_pos (sameModel.mpr model)]
    by_cases version : SameVersion boot ptr
    · rw [if_pos (sameVersion.mpr version), dealVersion, if_pos model,
        if_pos version]
      exact ⟨rfl, rfl, rfl⟩
    · rw [if_neg (sameVersion.not.mpr version), dealVersion, if_pos model,
        if_neg version]
      refine ⟨?_, rfl, rfl⟩
      simp only [announcedVer_again, memcpyField_again]
  · rw [dealVersion, if_neg (sameModel.not.mpr model)]
    exact .refl _

namespace PacketStore

variable {store : PacketStore} {ptr : List UInt8}

theorem not_accepts_again (accepts : store.Accepts ptr)
    (verified : store.Verified ptr) : ¬(store.accept ptr).Accepts ptr := by
  intro again
  have counted := accept_downPackCnt accepts
  rw [if_pos verified] at counted
  have first := accepts.2.2.2
  have second := again.2.2.2
  omega

theorem kept_eraseFlag (raised : store.eraseFlag ≠ 0) :
    (store.accept ptr).eraseFlag = store.eraseFlag := by
  rw [accept, if_neg raised]

section

variable (failed : ¬store.Verified ptr)

include failed

theorem uncounted : (store.accept ptr).downPackCnt = store.downPackCnt := by
  rw [accept, if_neg failed]

theorem accept_nextBlock : (store.accept ptr).nextBlock = store.nextBlock := by
  rw [nextBlock, uncounted failed, nextBlock]

theorem written_again (target : Nat) :
    ((store.accept ptr).written ptr).mem target =
      (store.written ptr).mem target := by
  have prepared : (store.accept ptr).prepared = store.written ptr :=
    if_neg accept_eraseFlag
  rw [written_mem, accept_nextBlock failed, prepared, written_mem]
  split
  · rw [UInt8.and_assoc, UInt8.and_self]
  · rfl

theorem not_verified_again : ¬(store.accept ptr).Verified ptr := by
  have read : flashReadForDownload ((store.accept ptr).written ptr)
      (store.accept ptr).nextBlock 256 =
        flashReadForDownload (store.written ptr) store.nextBlock 256 := by
    rw [flashReadForDownload, accept_nextBlock failed]
    exact List.map_congr_left fun _ _ => written_again failed _
  rw [Verified, read]
  exact failed

end

theorem receive_again (store : PacketStore) (ptr : List UInt8) :
    ((store.receive ptr).receive ptr).downPackCnt =
        (store.receive ptr).downPackCnt ∧
      ((store.receive ptr).receive ptr).eraseFlag =
        (store.receive ptr).eraseFlag ∧
      ((store.receive ptr).receive ptr).flash.mem =
        (store.receive ptr).flash.mem := by
  by_cases accepts : store.Accepts ptr
  · rw [receive_of_accepts accepts]
    by_cases verified : store.Verified ptr
    · rw [receive_of_not_accepts (not_accepts_again accepts verified)]
      exact ⟨rfl, rfl, rfl⟩
    · by_cases again : (store.accept ptr).Accepts ptr
      · rw [receive_of_accepts again]
        refine ⟨?_, ?_, ?_⟩
        · exact uncounted (not_verified_again verified)
        · exact kept_eraseFlag accept_eraseFlag
        · exact funext (written_again verified)
      · rw [receive_of_not_accepts again]
        exact ⟨rfl, rfl, rfl⟩
  · rw [receive_of_not_accepts accepts, receive_of_not_accepts accepts]
    exact ⟨rfl, rfl, rfl⟩

end PacketStore

theorem dealPacket_again (boot : Boot) {ptr : List UInt8}
    (kind : pocLine ptr = .packet) :
    SameState (dealPacket (dealPacket boot ptr) ptr)
      (dealPacket boot ptr) := by
  have deals (boot : Boot) : dealPacket boot ptr = pocUartMsgDeal boot ptr := by
    simp only [pocUartMsgDeal, kind]
  have store : (dealPacket (dealPacket boot ptr) ptr).packetStore =
      (boot.packetStore.receive ptr).receive ptr := by
    rw [deals, deals, pocUartMsgDeal_packetStore, pocUartMsgDeal_packetStore]
  have once : (dealPacket boot ptr).packetStore =
      boot.packetStore.receive ptr := by
    rw [deals, pocUartMsgDeal_packetStore]
  obtain ⟨count, flag, mem⟩ := boot.packetStore.receive_again ptr
  rw [← store, ← once] at count flag mem
  refine ⟨?_, flag, mem⟩
  obtain ⟨eraseFlag, downPackCnt, flash, second⟩ :=
    dealPacket_eq (dealPacket boot ptr) ptr
  rw [second] at count ⊢
  have kept : downPackCnt = (dealPacket boot ptr).pocDevice.downPackCnt :=
    count
  rw [kept]

/-- Whatever the line and the state, handing the line over twice leaves
`poc_device`, the erase flag and the flash as handing it over once. -/
theorem duplicate_harmless (boot : Boot) (ptr : List UInt8) :
    SameState (pocUartMsgDeal (pocUartMsgDeal boot ptr) ptr)
      (pocUartMsgDeal boot ptr) := by
  unfold pocUartMsgDeal
  cases kind : pocLine ptr with
  | ok =>
      refine ⟨?_, rfl, rfl⟩
      simp only [dealOk, Boot.setStatus, okStatus_again]
  | land =>
      refine ⟨?_, rfl, rfl⟩
      simp only [dealLand, Boot.setStatus, landStatus_again]
  | version => exact dealVersion_again boot ptr
  | downloading => exact ⟨rfl, rfl, rfl⟩
  | downloaded => exact ⟨rfl, rfl, rfl⟩
  | packet => exact dealPacket_again boot kind
  | failure => exact .refl _
  | other => exact .refl _

end Tp79Boot
