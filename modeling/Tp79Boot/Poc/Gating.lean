import Tp79Boot.Poc.PacketLine
import Tp79Boot.Poc.Status

/-!
# What an update has to go through

An update is meant to go through an announcement of another version for this
model, then through `+POC:4302`, then through its packets.  No handler but that
of `OK` looks at the status, so the order is kept only by runs in which each
line arrives in the status it belongs to.
-/

namespace Tp79Boot

open NorMemory EventRun

section

variable (start : Boot)

/-- No line of the run announces the stored version. -/
def NoEqual (events : List PocEvent) : Prop :=
  ∀ line, .receive line ∈ events → ¬VersionEqual start line

/-- Another version has been announced, and not the stored one since. -/
def Announced (events : List PocEvent) : Prop :=
  ∃ before line after, events = before ++ .receive line :: after ∧
    VersionDiffers start line ∧ NoEqual start after

/-- After that, `+POC:4302` has arrived, and the stored version has not been
announced since either. -/
def Gated (events : List PocEvent) : Prop :=
  ∃ before line after, events = before ++ .receive line :: after ∧
    pocLine line = .downloaded ∧ Announced start before ∧ NoEqual start after

/-- Every event that erases or programs does so in the status
`POC_DEVICE_VER_UPGRADE`, after the announcements an update goes through. -/
def UpdatesGated (events : List PocEvent) : Prop :=
  ∀ before event after, events = before ++ event :: after →
    (pocStep (run pocStep start before) event).flash.log ≠
      (run pocStep start before).flash.log →
    (run pocStep start before).pocDevice.status = .verUpgrade ∧
      Gated start before

/-- `+POC:4302` arrives only after the versions have been compared, and a
packet that passes the tests only in an upgrade. -/
def InOrder (boot : Boot) (event : PocEvent) : Prop :=
  ∀ line, event = .receive line →
    (pocLine line = .downloaded → boot.pocDevice.status = .verDwonload ∨
      boot.pocDevice.status = .verUpgrade) ∧
    (boot.packetStore.Accepts line → boot.pocDevice.status = .verUpgrade)

end

variable {start : Boot} {events : List PocEvent}

theorem NoEqual.concat (noEqual : NoEqual start events) {event : PocEvent}
    (notEqual : ∀ line, event = .receive line → ¬VersionEqual start line) :
    NoEqual start (events ++ [event]) := by
  intro line member
  rcases List.mem_append.mp member with earlier | last
  · exact noEqual line earlier
  · exact notEqual line (List.mem_singleton.mp last).symm

theorem Announced.concat (announced : Announced start events)
    {event : PocEvent}
    (notEqual : ∀ line, event = .receive line → ¬VersionEqual start line) :
    Announced start (events ++ [event]) := by
  obtain ⟨before, line, after, rfl, differs, noEqual⟩ := announced
  exact ⟨before, line, after ++ [event], by simp, differs,
    noEqual.concat notEqual⟩

theorem Gated.concat (gated : Gated start events) {event : PocEvent}
    (notEqual : ∀ line, event = .receive line → ¬VersionEqual start line) :
    Gated start (events ++ [event]) := by
  obtain ⟨before, line, after, rfl, kind, announced, noEqual⟩ := gated
  exact ⟨before, line, after ++ [event], by simp, kind, announced,
    noEqual.concat notEqual⟩

/-- Between an announcement and `+POC:4302`, the run is only announced. -/
theorem Gated.announced (gated : Gated start events) :
    Announced start events := by
  obtain ⟨before, line, after, rfl, kind, announced, noEqual⟩ := gated
  obtain ⟨first, version, middle, rfl, differs, noEqualThen⟩ := announced
  refine ⟨first, version, middle ++ .receive line :: after, by simp, differs,
    ?_⟩
  intro other member
  rcases List.mem_append.mp member with earlier | later
  · exact noEqualThen other earlier
  · rcases List.mem_cons.mp later with here | last
    · cases here
      intro equal
      cases kind.symm.trans equal.1
    · exact noEqual other last

/-- The status tells what has arrived. -/
def StatusTells (start : Boot) (events : List PocEvent) : Prop :=
  ((run pocStep start events).pocDevice.status = .verDwonload →
    Announced start events) ∧
  ((run pocStep start events).pocDevice.status = .verUpgrade →
    Gated start events)

theorem StatusTells.poll (tells : StatusTells start events) (tick : UInt32) :
    StatusTells start (events ++ [.poll tick]) := by
  have requests := pocTaskSwitch_onlyRequests tick (run pocStep start events)
  have status : (run pocStep start (events ++
      [.poll tick])).pocDevice.status =
        switchedStatus (run pocStep start events).pocDevice := by
    rw [run_concat]
    exact congrArg PocDevice.status requests.pocDevice
  have notLine (line : List UInt8) :
      PocEvent.poll tick = .receive line → ¬VersionEqual start line :=
    fun same => nomatch same
  unfold StatusTells
  rw [status, switchedStatus]
  split
  · constructor
    · intro other
      cases other
    · intro other
      cases other
  · exact ⟨fun dwonload => (tells.1 dwonload).concat notLine,
      fun upgrade => (tells.2 upgrade).concat notLine⟩

theorem StatusTells.receive (tells : StatusTells start events)
    {line : List UInt8}
    (inOrder : InOrder (run pocStep start events) (.receive line)) :
    StatusTells start (events ++ [.receive line]) := by
  have effect := pocUartMsgDeal_effect (run pocStep start events) line
  have cfgVer := pocRun_cfgVer start events
  have status : (run pocStep start
      (events ++ [.receive line])).pocDevice.status =
        lineStatus (run pocStep start events) line := by
    rw [run_concat]
    exact effect.status
  have keeps (notEqual : ¬VersionEqual (run pocStep start events) line)
      (other : List UInt8) (same : PocEvent.receive line = .receive other) :
      ¬VersionEqual start other := by
    cases same
    rwa [← versionEqual_congr cfgVer]
  unfold StatusTells
  rw [status]
  constructor
  · intro dwonload
    rcases lineStatus_dwonload dwonload with differs | ⟨before, notEqual⟩
    · refine ⟨events, line, [], rfl, (versionDiffers_congr cfgVer line).mp
        differs, ?_⟩
      intro other member
      cases member
    · exact (tells.1 before).concat (keeps notEqual)
  · intro upgrade
    rcases lineStatus_upgrade upgrade with announced | ⟨before, notEqual⟩
    · refine ⟨events, line, [], rfl, announced, ?_, ?_⟩
      · rcases (inOrder line rfl).1 announced with dwonload | upgraded
        · exact tells.1 dwonload
        · exact (tells.2 upgraded).announced
      · intro other member
        cases member
    · exact (tells.2 before).concat (keeps notEqual)

theorem statusTells_of_inOrder
    (initial : start.pocDevice.status = .statusStarting)
    (inOrder : Admitted pocStep InOrder start events) :
    StatusTells start events := by
  induction events using List.reverseRecOn with
  | nil =>
      unfold StatusTells
      rw [run_nil, initial]
      constructor
      · intro other
        cases other
      · intro other
        cases other
  | append_singleton events last induction =>
      have tells := induction inOrder.of_append
      cases last with
      | poll tick => exact tells.poll tick
      | receive line => exact tells.receive inOrder.last

theorem accepts_of_log_changed {boot : Boot} {event : PocEvent}
    (changed : (pocStep boot event).flash.log ≠ boot.flash.log) :
    ∃ line, event = .receive line ∧ boot.packetStore.Accepts line := by
  rw [pocStep_log] at changed
  cases event with
  | poll tick => simp [PacketStore.ops] at changed
  | receive line =>
      refine ⟨line, rfl, ?_⟩
      by_contra refuses
      simp [PacketStore.ops, refuses] at changed

theorem log_changed_of_accepts {boot : Boot} {line : List UInt8}
    (accepts : boot.packetStore.Accepts line) :
    (pocStep boot (.receive line)).flash.log ≠ boot.flash.log := by
  rw [pocStep_log, PacketStore.ops, if_pos accepts]
  intro unchanged
  have nothing := List.append_right_eq_self.mp unchanged
  have words := congrArg List.length (List.append_eq_nil_iff.mp nothing).2
  rw [writeOps, List.length_map, List.length_range] at words
  cases words

/-- In a run whose lines arrive in order, the application is erased and
programmed only in an upgrade that was announced. -/
theorem updates_gated_of_inOrder (mem : Mem) (deviceCfg : DeviceCfg)
    (pastCfg : List UInt8) (events : List PocEvent)
    (inOrder : Admitted pocStep InOrder
      (Boot.start mem deviceCfg pastCfg) events) :
    UpdatesGated (Boot.start mem deviceCfg pastCfg) events := by
  rintro before event after rfl changed
  obtain ⟨line, rfl, accepts⟩ := accepts_of_log_changed changed
  have upgrade := (inOrder before (.receive line) after rfl line rfl).2 accepts
  have tells := statusTells_of_inOrder rfl inOrder.of_append
  exact ⟨upgrade, tells.2 upgrade⟩

/-- A board that believes to run the version `verSoft`. -/
def installedCfg : DeviceCfg :=
  { initFlag := 0x66666666
    ver := memcpyField (Vector.replicate 32 0) verSoft verSoft.length }

/-- Another version for the same model. -/
def otherVersion : List UInt8 := ascii "+POC:420001020TYT_TP79V02_V191"

/-- An update of one packet. -/
def onePacket : List UInt8 := ascii "+POC:43020001"

theorem updates_gated_of_inOrder_update :
    UpdatesGated (Boot.start (fun _ => 0xFF) installedCfg [])
      [.receive otherVersion, .receive onePacket,
        .receive (zeroPacket 0)] := by
  apply updates_gated_of_inOrder
  generalize fresh : Boot.start (fun _ => 0xFF) installedCfg [] = boot
  have cfgVer : boot.cfgVer = installedCfg.ver.toList := by
    rw [← fresh]
    rfl
  have differs : VersionDiffers boot otherVersion := by
    unfold VersionDiffers SameModel SameVersion
    rw [cfgVer]
    decide
  have announced : pocLine onePacket = .downloaded := by decide
  have dwonload := (pocUartMsgDeal_effect boot otherVersion).status.trans
    (lineStatus_of_differs differs)
  have upgrade := (pocUartMsgDeal_effect (pocUartMsgDeal boot otherVersion)
    onePacket).status.trans (lineStatus_of_downloaded announced)
  have first : Admitted pocStep InOrder boot ([] ++
      [.receive otherVersion]) := by
    refine admitted_concat.mpr ⟨admitted_nil, ?_⟩
    rintro line ⟨rfl⟩
    constructor
    · intro kind
      cases differs.1.symm.trans kind
    · intro accepts
      cases differs.1.symm.trans accepts.1
  have second : Admitted pocStep InOrder boot
      ([.receive otherVersion] ++ [.receive onePacket]) := by
    refine admitted_concat.mpr ⟨first, ?_⟩
    rintro line ⟨rfl⟩
    constructor
    · exact fun _ => .inl dwonload
    · intro accepts
      cases announced.symm.trans accepts.1
  have third : Admitted pocStep InOrder boot
      ([.receive otherVersion, .receive onePacket] ++
        [.receive (zeroPacket 0)]) := by
    refine admitted_concat.mpr ⟨second, ?_⟩
    rintro line ⟨rfl⟩
    constructor
    · intro kind
      cases (packetLine_kind _ _).symm.trans kind
    · exact fun _ => upgrade
  exact third

/-- A packet that arrives first is stored in the status of power-up. -/
theorem updates_gated_firstPacket :
    ¬∀ (mem : Mem) (deviceCfg : DeviceCfg) (pastCfg : List UInt8)
      (events : List PocEvent),
      UpdatesGated (Boot.start mem deviceCfg pastCfg) events := by
  intro gated
  have run := gated (fun _ => 0xFF) installedCfg [] [.receive (zeroPacket 0)]
  generalize fresh : Boot.start (fun _ => 0xFF) installedCfg [] = boot at run
  have counted : boot.packetStore.downPackCnt.toNat = 0 := by
    rw [← fresh]
    rfl
  have starting : boot.pocDevice.status = .statusStarting := by
    rw [← fresh]
    rfl
  have accepts := zeroPacket_accepted counted (by decide)
  have first := run [] (.receive (zeroPacket 0)) [] rfl
    (log_changed_of_accepts accepts)
  rw [run_nil, starting] at first
  cases first.1

end Tp79Boot
