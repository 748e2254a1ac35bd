import Tp79Boot.Leaving
import Tp79Boot.Poc.Gating
import Tp79Boot.Poc.PacketPrefix

/-!
# Handing over to the application

The boot flag must not be given up while the application is half written.  The
loop gives it up whenever the status is not that of an upgrade, so the argument
is that an unfinished update always is an upgrade.  Lines can break that: they
are named here, and runs without them are safe.
-/

namespace Tp79Boot

open NorMemory EventRun

/-- The application has been erased and announced packets are missing. -/
def Unfinished (boot : Boot) : Prop :=
  boot.eraseFlag ≠ 0 ∧ boot.pocDevice.downPackCnt < boot.pocDevice.packSum

/-- The flag is as it was, or the application has not been erased, or every
announced packet has been written. -/
def HandoverSafe (start : Boot) (download : Download) : Prop :=
  bootFlag download.boot.flash ≠ 0x88888888 →
    ¬AppErased download.boot.flash ∨
      1 ≤ download.boot.pocDevice.packSum.toNat ∧
        ∀ index, index < download.boot.pocDevice.packSum.toNat →
          PacketWritten start download.history index

/-- The packet whose block begins with the boot flag. -/
def flagPacket : Nat := 1944

/-- A line that leaves the upgrade does not come in an unfinished update, no
empty announcement comes after the application has been erased, and packets
pass only after a nonempty announcement, in an upgrade or when all announced
packets are there, and never the one in the place of the boot flag. -/
structure CarefulLine (boot : Boot) (line : List UInt8) : Prop where
  leaving : LeavesUpgrade boot line → ¬Unfinished boot
  announcing : pocLine line = .downloaded →
    boot.eraseFlag = 0 ∨ announcedSum line ≠ 0
  storing : boot.packetStore.Accepts line → boot.pocDevice.packSum ≠ 0 ∧
    (boot.pocDevice.status = .verUpgrade ∨
      boot.pocDevice.packSum ≤ boot.pocDevice.downPackCnt) ∧
    boot.pocDevice.downPackCnt.toNat ≠ flagPacket

def Careful (download : Download) (event : LoopEvent) : Prop :=
  ∀ line, event = .receive line → download.phase = .draining →
    CarefulLine download.boot line

theorem written_bootFlag {store : PacketStore} (ptr : List UInt8)
    (notFlag : store.downPackCnt.toNat ≠ flagPacket) :
    bootFlag (store.written ptr) = bootFlag store.flash := by
  apply bootFlag_congr
  intro place bound
  have outsideBlock : ¬(stm32f103ve.Contains (flashAddrBootFlag + place) ∧
      store.nextBlock ≤ flashAddrBootFlag + place ∧
        flashAddrBootFlag + place < store.nextBlock + 256) := by
    unfold flagPacket at notFlag
    unfold PacketStore.nextBlock blockAddr startAddress flashAddrBootFlag
      flashAddrReserve
    omega
  have outsideApp : ¬(stm32f103ve.Contains (flashAddrBootFlag + place) ∧
      startAddress ≤ flashAddrBootFlag + place ∧
        flashAddrBootFlag + place < startAddress + eraseSize) := by
    unfold startAddress eraseSize flashAddrBootFlag flashAddrReserve
    omega
  rw [PacketStore.written_mem, if_neg outsideBlock, PacketStore.prepared]
  split
  · rw [eraseApp_mem, if_neg outsideApp]
  · rfl

/-- What holds inside the loop. -/
structure Guarded (boot : Boot) : Prop where
  flagged : bootFlag boot.flash = 0x88888888
  upgrading : Unfinished boot → boot.pocDevice.status = .verUpgrade
  announced : boot.eraseFlag ≠ 0 → boot.pocDevice.packSum ≠ 0
  untouched : boot.eraseFlag = 0 → ¬AppErased boot.flash

section

variable {boot : Boot}

theorem Guarded.poll (guarded : Guarded boot) (tick : UInt32) :
    Guarded (pocTaskSwitch tick boot) := by
  obtain ⟨device, _, _, eraseFlag, flash⟩ :=
    pocTaskSwitch_onlyRequests tick boot
  rw [Boot.setStatus_eraseFlag] at eraseFlag
  rw [Boot.setStatus_flash] at flash
  refine ⟨?_, ?_, ?_, ?_⟩
  · rw [flash]
    exact guarded.flagged
  · intro unfinished
    have before : Unfinished boot := by
      unfold Unfinished at unfinished ⊢
      rw [eraseFlag, device] at unfinished
      exact unfinished
    have missing : ¬boot.pocDevice.packSum ≤ boot.pocDevice.downPackCnt :=
      UInt16.not_le.mpr before.2
    rw [device, Boot.setStatus_pocDevice_status, switchedStatus,
      if_neg (fun both => missing both.2)]
    exact guarded.upgrading before
  · rw [eraseFlag, device]
    exact guarded.announced
  · rw [eraseFlag, flash]
    exact guarded.untouched

/-- A line that stores nothing. -/
theorem Guarded.line (guarded : Guarded boot) {line : List UInt8}
    (careful : CarefulLine boot line)
    (refuses : ¬boot.packetStore.Accepts line) :
    Guarded (pocUartMsgDeal boot line) := by
  have effect := pocUartMsgDeal_effect boot line
  have store := pocUartMsgDeal_packetStore boot line
  rw [PacketStore.receive_of_not_accepts refuses] at store
  have counter : (pocUartMsgDeal boot line).pocDevice.downPackCnt =
      boot.pocDevice.downPackCnt := congrArg PacketStore.downPackCnt store
  have eraseFlag : (pocUartMsgDeal boot line).eraseFlag = boot.eraseFlag :=
    congrArg PacketStore.eraseFlag store
  have flash : (pocUartMsgDeal boot line).flash = boot.flash :=
    congrArg PacketStore.flash store
  refine ⟨?_, ?_, ?_, ?_⟩
  · rw [flash]
    exact guarded.flagged
  · unfold Unfinished
    rw [eraseFlag, counter, effect.packSum, effect.status]
    rintro ⟨erased, missing⟩
    by_cases downloaded : pocLine line = .downloaded
    · exact lineStatus_of_downloaded downloaded
    · rw [linePackSum, if_neg downloaded] at missing
      have stays : ¬LeavesUpgrade boot line :=
        fun leaves => careful.leaving leaves ⟨erased, missing⟩
      exact lineStatus_keeps_upgrade stays
        (guarded.upgrading ⟨erased, missing⟩)
  · rw [eraseFlag, effect.packSum, linePackSum]
    intro erased
    split
    next downloaded =>
      rcases careful.announcing downloaded with notErased | nonempty
      · exact absurd notErased erased
      · exact nonempty
    next => exact guarded.announced erased
  · rw [eraseFlag, flash]
    exact guarded.untouched

/-- A packet that passes. -/
theorem Guarded.packet (guarded : Guarded boot) {line : List UInt8}
    (careful : CarefulLine boot line)
    (accepts : boot.packetStore.Accepts line) :
    Guarded (pocUartMsgDeal boot line) := by
  obtain ⟨nonempty, place, notFlag⟩ := careful.storing accepts
  have effect := pocUartMsgDeal_effect boot line
  have store := pocUartMsgDeal_packetStore boot line
  rw [PacketStore.receive_of_accepts accepts] at store
  have notAnnounced : pocLine line ≠ .downloaded := by
    rw [accepts.1]
    decide
  have sum : (pocUartMsgDeal boot line).pocDevice.packSum =
      boot.pocDevice.packSum := pocUartMsgDeal_otherSum boot notAnnounced
  have status : (pocUartMsgDeal boot line).pocDevice.status =
      boot.pocDevice.status := by
    rw [effect.status, lineStatus, accepts.1]
  have erased := pocUartMsgDeal_eraseFlag accepts
  refine ⟨?_, ?_, ?_, fun zero => absurd zero erased⟩
  · have flash : (pocUartMsgDeal boot line).flash =
        boot.packetStore.written line := congrArg PacketStore.flash store
    rw [flash, written_bootFlag line notFlag]
    exact guarded.flagged
  · rintro ⟨_, missing⟩
    rw [status]
    rcases place with upgrade | complete
    · exact upgrade
    · have counter := pocStep_downPackCnt boot (.receive line)
      rw [pocStep] at counter
      rw [sum, UInt16.lt_iff_toNat_lt] at missing
      rw [UInt16.le_iff_toNat_le] at complete
      omega
  · intro _
    rw [sum]
    exact nonempty

theorem Guarded.receive (guarded : Guarded boot) {line : List UInt8}
    (careful : CarefulLine boot line) :
    Guarded (pocUartMsgDeal boot line) := by
  by_cases accepts : boot.packetStore.Accepts line
  · exact guarded.packet careful accepts
  · exact guarded.line careful accepts

end

theorem Guarded.step {start : Boot} {download : Download} {event : LoopEvent}
    (tracks : Tracks start download)
    (guarded : Guarded (run pocStep start download.history))
    (careful : Careful download event) :
    Guarded (run pocStep start (loopStep download event).history) := by
  cases event with
  | poll tick =>
      simp only [loopStep]
      split
      · rw [run_concat]
        exact guarded.poll tick
      · exact guarded
  | receive line =>
      simp only [loopStep]
      split
      next draining =>
        have careful := careful line rfl draining
        rw [tracks.inside (by simp [draining])] at careful
        rw [run_concat]
        exact guarded.receive careful
      next => exact guarded
  | branch =>
      simp only [loopStep]
      split
      · split
        · exact guarded
        · split
          · exact guarded
          · exact guarded
      · exact guarded
  | timeout tick =>
      simp only [loopStep]
      split
      · split
        · exact guarded
        · exact guarded
      · exact guarded

theorem guarded_run {mem : Mem} {deviceCfg : DeviceCfg}
    {pastCfg : List UInt8} {events : List LoopEvent}
    (flagged : bootFlag { mem := mem, log := [] } = 0x88888888)
    (careful : Admitted loopStep Careful
      (Download.start mem deviceCfg pastCfg) events) :
    Guarded (run pocStep (Boot.start mem deviceCfg pastCfg)
      (run loopStep (Download.start mem deviceCfg pastCfg)
        events).history) := by
  have tracks := loop_tracks mem deviceCfg pastCfg []
  have initial : Guarded (Boot.start mem deviceCfg pastCfg) := by
    refine ⟨flagged, ?_, ?_, ?_⟩
    · rintro ⟨erased, _⟩
      exact absurd rfl erased
    · intro erased
      exact absurd rfl erased
    · rintro _ ⟨_, _, member⟩
      cases member
  have both := @run_invariant_of_admitted _ _ loopStep
    (Download.start mem deviceCfg pastCfg) events Careful
    (fun download => Tracks (Boot.start mem deviceCfg pastCfg) download ∧
      Guarded (run pocStep (Boot.start mem deviceCfg pastCfg)
        download.history))
    ⟨tracks, initial⟩
    (fun _ event holds admits => ⟨holds.1.step event,
      Guarded.step holds.1 holds.2 admits⟩)
    careful
  exact both.2

/-- In a run whose lines are all careful, the boot flag is not given up while
the application is half written. -/
theorem handover_safe_of_careful (mem : Mem) (deviceCfg : DeviceCfg)
    (pastCfg : List UInt8) (events : List LoopEvent)
    (flagged : bootFlag { mem := mem, log := [] } = 0x88888888)
    (careful : Admitted loopStep Careful
      (Download.start mem deviceCfg pastCfg) events) :
    HandoverSafe (Boot.start mem deviceCfg pastCfg)
      (run loopStep (Download.start mem deviceCfg pastCfg) events) := by
  have tracks := loop_tracks mem deviceCfg pastCfg events
  have guarded := guarded_run flagged careful
  have fresh : (Boot.start mem deviceCfg pastCfg).pocDevice.downPackCnt = 0 :=
    rfl
  generalize run loopStep (Download.start mem deviceCfg pastCfg) events =
    download at tracks guarded ⊢
  generalize Boot.start mem deviceCfg pastCfg = start at tracks guarded fresh ⊢
  intro givenUp
  by_cases left : download.phase = .left
  · have leaving := tracks.outside left
    by_cases untouched : (run pocStep start download.history).eraseFlag = 0
    · exact .inl fun erased => guarded.untouched untouched
        (leaving.elsewhere.appErased_iff.mp erased)
    · have finished : ¬Unfinished (run pocStep start download.history) :=
        fun unfinished => leaving.notUpgrade (guarded.upgrading unfinished)
      have nonempty := guarded.announced untouched
      have counted : (run pocStep start
          download.history).pocDevice.packSum.toNat ≤
            (run pocStep start
              download.history).pocDevice.downPackCnt.toNat := by
        rw [← UInt16.le_iff_toNat_le]
        exact UInt16.not_lt.mp fun missing => finished ⟨untouched, missing⟩
      right
      rw [leaving.pocDevice]
      refine ⟨?_, fun index below => ?_⟩
      · exact Nat.one_le_iff_ne_zero.mpr fun zero =>
          nonempty (UInt16.toNat_inj.mp zero)
      · exact packetWritten_of_counted fresh (Nat.lt_of_lt_of_le below counted)
  · rw [tracks.inside left] at givenUp
    exact absurd guarded.flagged givenUp

/-- A flash of `0x88` bytes asks for an update. -/
def askingMem : Mem := fun _ => 0x88

theorem askingMem_bootFlag :
    bootFlag { mem := askingMem, log := [] } = 0x88888888 := by
  decide

section

variable {boot : Boot} {line : List UInt8}

theorem CarefulLine.of_version (kind : pocLine line = .version)
    (finished : ¬Unfinished boot) : CarefulLine boot line := by
  refine ⟨fun _ => finished, fun other => ?_, fun accepts => ?_⟩
  · cases kind.symm.trans other
  · cases kind.symm.trans accepts.1

theorem CarefulLine.of_downloaded (kind : pocLine line = .downloaded)
    (nonempty : announcedSum line ≠ 0) : CarefulLine boot line := by
  refine ⟨?_, fun _ => .inr nonempty, fun accepts => ?_⟩
  · rintro (land | version)
    · cases kind.symm.trans land.1
    · cases kind.symm.trans version.1
  · cases kind.symm.trans accepts.1

theorem CarefulLine.of_packet (kind : pocLine line = .packet)
    (nonempty : boot.pocDevice.packSum ≠ 0)
    (upgrade : boot.pocDevice.status = .verUpgrade)
    (notFlag : boot.pocDevice.downPackCnt.toNat ≠ flagPacket) :
    CarefulLine boot line := by
  refine ⟨?_, fun other => ?_, fun _ => ⟨nonempty, .inl upgrade, notFlag⟩⟩
  · rintro (land | version)
    · cases kind.symm.trans land.1
    · cases kind.symm.trans version.1
  · cases kind.symm.trans other

end

theorem careful_turn {download : Download} {tick : UInt32}
    {lines : List (List UInt8)} {line : List UInt8}
    (polling : download.phase = .polling)
    (earlier : Admitted loopStep Careful download (turn tick lines))
    (careful : CarefulLine (run pocStep download.boot (turnEvents tick lines))
      line) :
    Admitted loopStep Careful download (turn tick (lines ++ [line])) := by
  have events : turn tick (lines ++ [line]) =
      turn tick lines ++ [.receive line] := by simp [turn]
  rw [events, admitted_concat, run_turn tick lines polling]
  refine ⟨earlier, ?_⟩
  rintro other ⟨rfl⟩ _
  exact careful

/-- A whole update of one packet, until its success has cleared the flag. -/
theorem handover_safe_of_careful_update :
    HandoverSafe (Boot.start askingMem installedCfg [])
      (run loopStep (Download.start askingMem installedCfg [])
        (turn 0 [otherVersion, onePacket, zeroPacket 0] ++
          [.branch, .timeout 0, .poll 0, .branch])) := by
  apply handover_safe_of_careful _ _ _ _ askingMem_bootFlag
  have polling :
      (Download.start askingMem installedCfg []).phase = .polling := rfl
  have store : (Download.start askingMem installedCfg []).boot.packetStore =
      { downPackCnt := 0, eraseFlag := 0,
        flash := { mem := askingMem, log := [] } } := rfl
  generalize Download.start askingMem installedCfg [] = start at polling store ⊢
  have polled : Admitted loopStep Careful start (turn 0 []) := by
    apply admitted_of_forall
    rintro state event member line rfl
    simp [turn] at member
  have versionKind : pocLine otherVersion = .version := by decide
  have announceKind : pocLine onePacket = .downloaded := by decide
  have first : (run pocStep start.boot (turnEvents 0 [])).packetStore =
      start.boot.packetStore := pocTaskSwitch_packetStore 0 start.boot
  have announced := careful_turn polling polled (.of_version versionKind (by
    rintro ⟨erased, _⟩
    have flag := congrArg PacketStore.eraseFlag (first.trans store)
    exact erased flag))
  have counted := careful_turn polling announced
    (.of_downloaded announceKind (by decide))
  have upgraded : run pocStep start.boot
      (turnEvents 0 [otherVersion, onePacket]) =
        dealDownloaded (run pocStep start.boot (turnEvents 0 [otherVersion]))
          onePacket :=
    (run_turnEvents_concat start.boot 0 [otherVersion] onePacket).trans
      (pocUartMsgDeal_downloaded _ announceKind)
  have unstored : (run pocStep start.boot
      (turnEvents 0 [otherVersion])).packetStore = start.boot.packetStore := by
    have version := run_turnEvents_concat start.boot 0 [] otherVersion
    rw [List.nil_append] at version
    rw [version, pocUartMsgDeal_otherStore _ (by simp [versionKind]), first]
  have beforeLast : CarefulLine (run pocStep start.boot
      (turnEvents 0 [otherVersion, onePacket])) (zeroPacket 0) := by
    have counter := congrArg PacketStore.downPackCnt (unstored.trans store)
    have nonempty : announcedSum onePacket ≠ 0 := by decide
    rw [upgraded]
    refine .of_packet (packetLine_kind _ _) nonempty rfl ?_
    have zero : (dealDownloaded (run pocStep start.boot
        (turnEvents 0 [otherVersion])) onePacket).pocDevice.downPackCnt = 0 :=
      counter
    rw [zero]
    decide
  have stored := careful_turn polling counted beforeLast
  refine admitted_append.mpr ⟨stored, admitted_of_forall ?_⟩
  rintro state event member line rfl
  simp at member

/-- The first of two packets, and then a login notice. -/
def brokenOff : List (List UInt8) :=
  [ascii "+POC:43020002", zeroPacket 0, ascii "+POC:8202"]

theorem announceKind : pocLine (ascii "+POC:43020002") = .downloaded := by
  decide

theorem announcedTwo : announcedSum (ascii "+POC:43020002") = 2 := by
  decide

theorem noticeKind : pocLine (ascii "+POC:8202") = .land := by
  decide

theorem brokenOff_reached (boot : Boot)
    (fresh : boot.pocDevice.downPackCnt = 0) :
    (run pocStep boot (turnEvents 0 brokenOff)).pocDevice.status =
        .statusLandSuccessed ∧
      (run pocStep boot (turnEvents 0 brokenOff)).pocDevice.packSum = 2 ∧
      (run pocStep boot (turnEvents 0 brokenOff)).eraseFlag ≠ 0 := by
  have events : turnEvents 0 brokenOff =
      [.poll 0, .receive (ascii "+POC:43020002"), .receive (zeroPacket 0),
        .receive (ascii "+POC:8202")] := rfl
  have polled := pocTaskSwitch_packetStore 0 boot
  simp only [events, run_cons, run_nil, pocStep,
    pocUartMsgDeal_downloaded _ announceKind]
  generalize pocTaskSwitch 0 boot = first at polled
  have announced : (dealDownloaded first
      (ascii "+POC:43020002")).packetStore = boot.packetStore := polled
  have sum : (dealDownloaded first
      (ascii "+POC:43020002")).pocDevice.packSum =
        announcedSum (ascii "+POC:43020002") := rfl
  generalize dealDownloaded first (ascii "+POC:43020002") = second
    at announced sum
  have counter : second.packetStore.downPackCnt.toNat = 0 := by
    rw [announced, Boot.packetStore_downPackCnt, fresh]
    rfl
  have accepts := zeroPacket_accepted counter (by decide)
  have packetKind : pocLine (zeroPacket 0) ≠ .downloaded := by
    rw [accepts.1]
    decide
  have raised := pocUartMsgDeal_eraseFlag accepts
  have sumKept := pocUartMsgDeal_otherSum second packetKind
  rw [sum, announcedTwo] at sumKept
  generalize pocUartMsgDeal second (zeroPacket 0) = third at raised sumKept
  have notice : pocUartMsgDeal third (ascii "+POC:8202") =
      third.setStatus .statusLandSuccessed := by
    have landed : memcmpEq (ascii "+POC:8202") 7 (ascii "02") 2 := by decide
    simp only [pocUartMsgDeal, noticeKind, dealLand, landStatus, if_pos landed]
  rw [notice]
  refine ⟨rfl, ?_, ?_⟩
  · rw [Boot.setStatus_pocDevice_packSum]
    exact sumKept
  · rw [Boot.setStatus_eraseFlag]
    exact raised

/-- The notice ends the upgrade, and the clock ends the loop. -/
theorem handover_safe_brokenOff :
    ¬∀ (mem : Mem) (deviceCfg : DeviceCfg) (pastCfg : List UInt8)
      (events : List LoopEvent),
      bootFlag { mem := mem, log := [] } = 0x88888888 →
      HandoverSafe (Boot.start mem deviceCfg pastCfg)
        (run loopStep (Download.start mem deviceCfg pastCfg) events) := by
  intro safe
  have handedOver := safe askingMem installedCfg []
    (turn 0 brokenOff ++ [.branch, .timeout 300001]) askingMem_bootFlag
  have fresh : (Boot.start askingMem installedCfg []).pocDevice.downPackCnt = 0 ∧
      (Boot.start askingMem installedCfg []).eraseFlag = 0 := ⟨rfl, rfl⟩
  have started : Download.start askingMem installedCfg [] =
      { phase := .polling
        boot := Boot.start askingMem installedCfg []
        history := [] } := rfl
  rw [run_append, started, run_turn _ _ rfl] at handedOver
  generalize Boot.start askingMem installedCfg [] = boot at fresh handedOver
  obtain ⟨status, sum, raised⟩ := brokenOff_reached boot fresh.1
  have erased := pocRun_erased fresh.2 _ raised
  have missing : ¬PacketWritten boot (turnEvents 0 brokenOff) 1 := by
    rintro ⟨before, line, after, split, kind, number, _⟩
    have member : .receive line ∈ turnEvents 0 brokenOff := by simp [split]
    simp only [turnEvents, brokenOff, List.map_cons, List.map_nil,
      List.mem_cons, List.not_mem_nil, or_false, PocEvent.receive.injEq,
      reduceCtorEq, false_or] at member
    rcases member with rfl | rfl | rfl
    · cases announceKind.symm.trans kind
    · rw [zeroPacket, packetLine_number] at number
      cases number
    · cases noticeKind.symm.trans kind
  rw [List.nil_append] at handedOver
  generalize turnEvents 0 brokenOff = history at *
  generalize run pocStep boot history = reached at *
  rw [run_timeout rfl (by simp [status]) (by simp [status]) (by simp [status])
    (by decide)] at handedOver
  have leaving : Exit reached (leaveTimeout reached) :=
    .timeout (by simp [status])
  have cleared : bootFlag (leaveTimeout reached).flash ≠ 0x88888888 := by
    rw [leaving.bootFlag]
    decide
  rcases handedOver cleared with unerased | ⟨_, written⟩
  · apply unerased
    apply leaving.elsewhere.appErased_iff.mpr
    exact appErased_of_subset erased
  · apply missing
    apply written
    rw [leaving.pocDevice, sum]
    decide

end Tp79Boot
