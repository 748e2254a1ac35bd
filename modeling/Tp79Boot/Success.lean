import Tp79Boot.Leaving
import Tp79Boot.Poc.Gating
import Tp79Boot.Poc.PacketPrefix

/-!
# What a success rests on

The status `POC_DEVICE_VER_DWONLOAD_SUCCESS` comes from a comparison of two
counters.  The first packet erases and no packet is counted unwritten, so the
comparison is right whenever there is something to compare: the last
announcement must not be empty.
-/

namespace Tp79Boot

open NorMemory EventRun

/-- The number of packets in the last `+POC:4302` line. -/
def latestSum (events : List PocEvent) : Option UInt16 :=
  events.foldl (fun latest event =>
    match event with
    | .receive line =>
        if pocLine line = .downloaded then some (announcedSum line) else latest
    | .poll _ => latest) none

/-- The loop is about to take its branch on success. -/
def TakesSuccess (download : Download) : Prop :=
  download.phase = .draining ∧
    download.boot.pocDevice.status = .verDwonloadSuccess

theorem TakesSuccess.leaves {download : Download}
    (success : TakesSuccess download) :
    loopStep download .branch =
      { download with phase := .left, boot := leaveSuccess download.boot } := by
  have notSame : download.boot.pocDevice.status ≠ .verSame := by
    simp [success.2]
  simp only [loopStep, if_pos success.1, if_neg notSame, if_pos success.2]

/-- The application has been erased, and the packets of the last announcement,
at least one, have all been written. -/
def Complete (start : Boot) (download : Download) : Prop :=
  eraseAppOps ⊆ download.boot.flash.log ∧
    ∃ sum, latestSum download.history = some sum ∧ 1 ≤ sum.toNat ∧
      ∀ index, index < sum.toNat → PacketWritten start download.history index

@[simp] theorem latestSum_poll (events : List PocEvent) (tick : UInt32) :
    latestSum (events ++ [.poll tick]) = latestSum events := by
  simp [latestSum]

theorem latestSum_receive (events : List PocEvent) (line : List UInt8) :
    latestSum (events ++ [.receive line]) =
      if pocLine line = .downloaded then some (announcedSum line)
      else latestSum events := by
  simp [latestSum]

/-- The counters are those of the last announcement, and they have met. -/
structure SumTells (start : Boot) (events : List PocEvent) : Prop where
  sum : (run pocStep start events).pocDevice.packSum =
    (latestSum events).getD 0
  announced : (run pocStep start events).pocDevice.status = .verUpgrade ∨
    (run pocStep start events).pocDevice.status = .verDwonloadSuccess →
      latestSum events ≠ none
  met : (run pocStep start events).pocDevice.status = .verDwonloadSuccess →
    (run pocStep start events).pocDevice.packSum ≤
      (run pocStep start events).pocDevice.downPackCnt

section

variable {start : Boot} {events : List PocEvent}

theorem SumTells.poll (tells : SumTells start events) (tick : UInt32) :
    SumTells start (events ++ [.poll tick]) := by
  have device :
      (run pocStep start (events ++ [.poll tick])).pocDevice =
        { (run pocStep start events).pocDevice with
          status := switchedStatus (run pocStep start events).pocDevice } := by
    rw [run_concat]
    exact (pocTaskSwitch_onlyRequests tick _).pocDevice
  constructor
  · rw [device, latestSum_poll]
    exact tells.sum
  · rw [device, latestSum_poll]
    intro status
    apply tells.announced
    simp only [switchedStatus] at status
    split at status
    next finished => exact .inl finished.1
    next => exact status
  · rw [device]
    intro status
    simp only [switchedStatus] at status
    split at status
    next finished => exact finished.2
    next => exact tells.met status

theorem SumTells.receive (tells : SumTells start events) (line : List UInt8) :
    SumTells start (events ++ [.receive line]) := by
  have effect := pocUartMsgDeal_effect (run pocStep start events) line
  have counter := pocStep_downPackCnt (run pocStep start events)
    (.receive line)
  have next : run pocStep start (events ++ [.receive line]) =
      pocUartMsgDeal (run pocStep start events) line := run_concat ..
  rw [pocStep] at counter
  rw [← next] at effect counter
  by_cases downloaded : pocLine line = .downloaded
  · have latest := latestSum_receive events line
    rw [if_pos downloaded] at latest
    constructor
    · rw [effect.packSum, linePackSum, if_pos downloaded, latest]
      rfl
    · intro _
      simp [latest]
    · rw [effect.status, lineStatus_of_downloaded downloaded]
      intro other
      cases other
  · have latest := latestSum_receive events line
    rw [if_neg downloaded] at latest
    have sum : (run pocStep start (events ++ [.receive line])).pocDevice.packSum =
        (run pocStep start events).pocDevice.packSum :=
      effect.packSum.trans (if_neg downloaded)
    constructor
    · rw [sum, latest]
      exact tells.sum
    · rw [effect.status, latest]
      rintro (upgrade | success)
      · apply tells.announced
        rcases lineStatus_upgrade upgrade with announced | ⟨before, _⟩
        · exact absurd announced downloaded
        · exact .inl before
      · exact tells.announced (.inr (lineStatus_success success).1)
    · rw [effect.status, sum]
      intro success
      have met := tells.met (lineStatus_success success).1
      rw [UInt16.le_iff_toNat_le] at met ⊢
      omega

theorem sumTells_run (fresh : start.pocDevice = PocDevice.zero)
    (events : List PocEvent) : SumTells start events := by
  induction events using List.reverseRecOn with
  | nil =>
      constructor
      · rw [run_nil, fresh]
        rfl
      · rw [run_nil, fresh]
        rintro (other | other)
        · cases other
        · cases other
      · rw [run_nil, fresh]
        intro other
        cases other
  | append_singleton events last induction =>
      cases last with
      | poll tick => exact induction.poll tick
      | receive line => exact induction.receive line

theorem erased_of_counted (started : start.packetStore.Started)
    (unerased : start.eraseFlag = 0)
    (counted : 0 < (run pocStep start events).pocDevice.downPackCnt.toNat) :
    eraseAppOps ⊆ (run pocStep start events).flash.log := by
  apply pocRun_erased unerased
  intro flag
  have zero := pocRun_started started events flag
  rw [Boot.packetStore_downPackCnt] at zero
  rw [zero] at counted
  exact absurd counted (Nat.lt_irrefl 0)

end

/-- When the loop takes its branch on success, the announced update is complete
exactly when the last announcement was not empty. -/
theorem success_complete_iff (mem : Mem) (deviceCfg : DeviceCfg)
    (pastCfg : List UInt8) (events : List LoopEvent)
    (success : TakesSuccess
      (run loopStep (Download.start mem deviceCfg pastCfg) events)) :
    Complete (Boot.start mem deviceCfg pastCfg)
        (run loopStep (Download.start mem deviceCfg pastCfg) events) ↔
      latestSum (run loopStep (Download.start mem deviceCfg pastCfg)
        events).history ≠ some 0 := by
  have tracks := loop_tracks mem deviceCfg pastCfg events
  have fresh : (Boot.start mem deviceCfg pastCfg).pocDevice =
      PocDevice.zero := rfl
  have unerased : (Boot.start mem deviceCfg pastCfg).eraseFlag = 0 := rfl
  have started := start_started mem deviceCfg pastCfg
  generalize run loopStep (Download.start mem deviceCfg pastCfg) events =
    download at success tracks ⊢
  generalize Boot.start mem deviceCfg pastCfg = start at *
  obtain ⟨draining, status⟩ := success
  have reached := tracks.inside (by simp [draining])
  have tells := sumTells_run fresh download.history
  rw [reached] at status
  constructor
  · rintro ⟨_, sum, latest, positive, _⟩ empty
    cases latest.symm.trans empty
    exact absurd positive (Nat.not_succ_le_zero 0)
  · intro nonempty
    obtain ⟨sum, latest⟩ :=
      Option.ne_none_iff_exists'.mp (tells.announced (.inr status))
    have positive : 1 ≤ sum.toNat := by
      apply Nat.one_le_iff_ne_zero.mpr
      intro zero
      have none : sum = 0 := UInt16.toNat_inj.mp zero
      exact nonempty (none ▸ latest)
    have packSum := tells.sum
    rw [latest, Option.getD_some] at packSum
    have met := UInt16.le_iff_toNat_le.mp (tells.met status)
    rw [packSum] at met
    refine ⟨?_, sum, latest, positive, fun index below => ?_⟩
    · rw [reached]
      exact erased_of_counted started unerased
        (Nat.lt_of_lt_of_le positive met)
    · have zero : start.pocDevice.downPackCnt = 0 := by
        rw [fresh]
        rfl
      exact packetWritten_of_counted zero (Nat.lt_of_lt_of_le below met)

theorem takesSuccess_next {download : Download}
    (draining : download.phase = .draining)
    (upgrade : download.boot.pocDevice.status = .verUpgrade)
    (finished : download.boot.pocDevice.packSum ≤
      download.boot.pocDevice.downPackCnt) :
    TakesSuccess
      (run loopStep download [.branch, .timeout 0, .poll 0]) := by
  rw [run_upgrade draining upgrade]
  exact ⟨rfl, pocTaskSwitch_finished upgrade finished⟩

/-- An announcement of one packet, and then the packet. -/
theorem onePacket_finishes {boot : Boot} {announcement packet : List UInt8}
    (announced : pocLine announcement = .downloaded)
    (one : (announcedSum announcement).toNat = 1)
    (accepts : boot.packetStore.Accepts packet)
    (verified : boot.packetStore.Verified packet) :
    (pocUartMsgDeal (pocUartMsgDeal boot announcement)
        packet).pocDevice.status = .verUpgrade ∧
      (pocUartMsgDeal (pocUartMsgDeal boot announcement)
        packet).pocDevice.packSum ≤
          (pocUartMsgDeal (pocUartMsgDeal boot announcement)
            packet).pocDevice.downPackCnt := by
  have notPacket : pocLine announcement ≠ .packet := by
    rw [announced]
    decide
  have notAnnounced : pocLine packet ≠ .downloaded := by
    rw [accepts.1]
    decide
  have store := pocUartMsgDeal_otherStore boot notPacket
  have upgraded := pocUartMsgDeal_downloaded boot announced
  generalize pocUartMsgDeal boot announcement = second at store upgraded ⊢
  have effect := pocUartMsgDeal_effect second packet
  have sum := pocUartMsgDeal_otherSum second notAnnounced
  have counter := congrArg (fun store : PacketStore => store.downPackCnt.toNat)
    (pocUartMsgDeal_packetStore second packet)
  rw [store, PacketStore.receive_downPackCnt, if_pos ⟨accepts, verified⟩]
    at counter
  constructor
  · rw [effect.status, lineStatus, accepts.1, upgraded]
    rfl
  · have announcedSum : second.pocDevice.packSum.toNat = 1 := by
      rw [upgraded]
      exact one
    rw [UInt16.le_iff_toNat_le, sum, announcedSum]
    exact Nat.le_trans (Nat.le_add_left 1 _) (Nat.le_of_eq counter.symm)

theorem run_otherStore {boot : Boot} {lines : List (List UInt8)} (tick : UInt32)
    (others : ∀ line ∈ lines, pocLine line ≠ .packet) :
    (run pocStep boot (turnEvents tick lines)).packetStore =
      boot.packetStore := by
  induction lines using List.reverseRecOn with
  | nil => exact pocTaskSwitch_packetStore tick boot
  | append_singleton lines last induction =>
      have earlier := induction fun line member =>
        others line (List.mem_append_left _ member)
      rw [run_turnEvents_concat, pocUartMsgDeal_otherStore _
        (others last (List.mem_append_right _ List.mem_cons_self)), earlier]

/-- A run that handles `lines` and then an update of one packet. -/
def updateEvents (lines : List (List UInt8)) : List LoopEvent :=
  turn 0 (lines ++ [onePacket] ++ [zeroPacket 0]) ++
    [.branch, .timeout 0, .poll 0]

theorem updateEvents_success {download : Download}
    {lines : List (List UInt8)} (polling : download.phase = .polling)
    (fresh : download.boot.pocDevice.downPackCnt = 0)
    (others : ∀ line ∈ lines, pocLine line ≠ .packet) :
    TakesSuccess (run loopStep download (updateEvents lines)) ∧
      (run loopStep download (updateEvents lines)).history =
        download.history ++
          turnEvents 0 (lines ++ [onePacket] ++ [zeroPacket 0]) ++
            [.poll 0] := by
  have store := @run_otherStore download.boot lines 0 others
  have events := run_turn 0 (lines ++ [onePacket] ++ [zeroPacket 0]) polling
  have received : run pocStep download.boot
      (turnEvents 0 (lines ++ [onePacket] ++ [zeroPacket 0])) =
        pocUartMsgDeal (pocUartMsgDeal
          (run pocStep download.boot (turnEvents 0 lines)) onePacket)
          (zeroPacket 0) := by
    rw [run_turnEvents_concat, run_turnEvents_concat]
  generalize run pocStep download.boot (turnEvents 0 lines) = boot
    at store received
  have counter : boot.packetStore.downPackCnt.toNat = 0 := by
    rw [store, Boot.packetStore_downPackCnt, fresh]
    rfl
  have accepts := zeroPacket_accepted counter (by decide)
  have verified : boot.packetStore.Verified (zeroPacket 0) := by
    apply zeroPacket_verified
    rw [PacketStore.nextBlock, counter]
    decide
  obtain ⟨upgrade, finished⟩ := onePacket_finishes
    (show pocLine onePacket = .downloaded by decide) (by decide) accepts
    verified
  rw [← received] at upgrade finished
  rw [updateEvents, run_append, events]
  constructor
  · exact takesSuccess_next rfl upgrade finished
  · rw [run_upgrade rfl upgrade]

theorem success_complete_onePacket :
    Complete (Boot.start (fun _ => 0xFF) installedCfg [])
      (run loopStep (Download.start (fun _ => 0xFF) installedCfg [])
        (updateEvents [])) := by
  have polling :
      (Download.start (fun _ => 0xFF) installedCfg []).phase = .polling := rfl
  have fresh : (Download.start (fun _ => 0xFF) installedCfg
      []).boot.pocDevice.downPackCnt = 0 := rfl
  obtain ⟨success, history⟩ := @updateEvents_success
    (Download.start (fun _ => 0xFF) installedCfg []) [] polling fresh (by simp)
  have latest : latestSum (run loopStep (Download.start (fun _ => 0xFF)
      installedCfg []) (updateEvents [])).history = some 1 := by
    have announced : pocLine onePacket = .downloaded := by decide
    have packet : pocLine (zeroPacket 0) ≠ .downloaded := by
      rw [zeroPacket, packetLine_kind]
      decide
    rw [history, latestSum_poll, turnEvents_concat, turnEvents_concat,
      ← List.append_assoc, latestSum_receive, if_neg packet,
      ← List.append_assoc, latestSum_receive, if_pos announced]
    decide
  apply (success_complete_iff _ _ _ _ success).mpr
  rw [latest]
  decide

/-- An announcement of no packet at all. -/
def emptyAnnouncement : List UInt8 := ascii "+POC:43020000"

/-- It is answered with a success, and nothing has been erased. -/
theorem success_complete_emptyAnnouncement :
    ¬∀ (mem : Mem) (deviceCfg : DeviceCfg) (pastCfg : List UInt8)
      (events : List LoopEvent),
      TakesSuccess
        (run loopStep (Download.start mem deviceCfg pastCfg) events) →
      Complete (Boot.start mem deviceCfg pastCfg)
        (run loopStep (Download.start mem deviceCfg pastCfg) events) := by
  intro complete
  have done := complete (fun _ => 0xFF) installedCfg []
    (turn 0 [emptyAnnouncement] ++ [.branch, .timeout 0, .poll 0])
  have polling :
      (Download.start (fun _ => 0xFF) installedCfg []).phase = .polling := rfl
  have announced : pocLine emptyAnnouncement = .downloaded := by decide
  have empty : announcedSum emptyAnnouncement = 0 := by decide
  have noHistory :
      (Download.start (fun _ => 0xFF) installedCfg []).history = [] := rfl
  generalize Boot.start (fun _ => 0xFF) installedCfg [] = start at done
  generalize Download.start (fun _ => 0xFF) installedCfg [] = download
    at done polling noHistory
  have received := run_turnEvents_concat download.boot 0 [] emptyAnnouncement
  rw [List.nil_append, pocUartMsgDeal_downloaded _ announced] at received
  rw [run_append, run_turn 0 [emptyAnnouncement] polling, received, noHistory]
    at done
  generalize run pocStep download.boot (turnEvents 0 []) = before at done
  have finished : (dealDownloaded before emptyAnnouncement).pocDevice.packSum ≤
      (dealDownloaded before emptyAnnouncement).pocDevice.downPackCnt := by
    apply dealDownloaded_finished
    rw [empty]
    exact UInt16.zero_le
  obtain ⟨_, sum, latest, positive, _⟩ :=
    done (takesSuccess_next rfl rfl finished)
  rw [run_upgrade rfl rfl] at latest
  have none : latestSum ([] ++ turnEvents 0 [emptyAnnouncement] ++
      [.poll 0]) = some 0 := by decide
  cases none.symm.trans latest
  exact absurd positive (Nat.not_succ_le_zero 0)

end Tp79Boot
