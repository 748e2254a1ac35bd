import Tp79Boot.Poc.PacketStore

/-!
# The status

Which status a line leaves behind.  Only `OK` looks at the status it finds;
every other line that sets it does so in any status.
-/

namespace Tp79Boot

open EventRun

/-- An announcement for this model of a version other than the stored one. -/
def VersionDiffers (boot : Boot) (ptr : List UInt8) : Prop :=
  pocLine ptr = .version ∧ SameModel boot ptr ∧ ¬SameVersion boot ptr

/-- An announcement of the stored version. -/
def VersionEqual (boot : Boot) (ptr : List UInt8) : Prop :=
  pocLine ptr = .version ∧ SameModel boot ptr ∧ SameVersion boot ptr

instance (boot : Boot) (ptr : List UInt8) :
    Decidable (VersionDiffers boot ptr) :=
  inferInstanceAs (Decidable (_ ∧ _ ∧ _))

instance (boot : Boot) (ptr : List UInt8) :
    Decidable (VersionEqual boot ptr) :=
  inferInstanceAs (Decidable (_ ∧ _ ∧ _))

/-- A line that sets another status than that of an upgrade: a login notice,
or a version for this model. -/
def LeavesUpgrade (boot : Boot) (ptr : List UInt8) : Prop :=
  pocLine ptr = .land ∧
      (memcmpEq ptr 7 (ascii "02") 2 ∨ memcmpEq ptr 7 (ascii "01") 2) ∨
    pocLine ptr = .version ∧ SameModel boot ptr

/-- The status after a line. -/
def lineStatus (boot : Boot) (ptr : List UInt8) : PocStatus :=
  match pocLine ptr with
  | .ok => okStatus boot.pocDevice.status
  | .land => landStatus boot.pocDevice.status ptr
  | .version =>
      if SameModel boot ptr then
        if SameVersion boot ptr then .verSame else .verDwonload
      else boot.pocDevice.status
  | .downloaded => .verUpgrade
  | _ => boot.pocDevice.status

/-- The announced number of packets after a line. -/
def linePackSum (boot : Boot) (ptr : List UInt8) : UInt16 :=
  if pocLine ptr = .downloaded then announcedSum ptr else boot.pocDevice.packSum

/-- The announced version after a line. -/
def lineVer (boot : Boot) (ptr : List UInt8) : Vector UInt8 32 :=
  if VersionDiffers boot ptr then
    announcedVer boot.pocDevice.serverSoftVer ptr
  else boot.pocDevice.serverSoftVer

/-- What a line does to the variables that are not part of the packet store. -/
structure LineEffect (boot : Boot) (ptr : List UInt8) (after : Boot) :
    Prop where
  status : after.pocDevice.status = lineStatus boot ptr
  packSum : after.pocDevice.packSum = linePackSum boot ptr
  serverSoftVer : after.pocDevice.serverSoftVer = lineVer boot ptr
  deviceCfg : after.deviceCfg = boot.deviceCfg
  pastCfg : after.pastCfg = boot.pastCfg

theorem dealVersion_effect (boot : Boot) {ptr : List UInt8}
    (kind : pocLine ptr = .version) :
    LineEffect boot ptr (dealVersion boot ptr) := by
  have notAnnounced : pocLine ptr ≠ .downloaded := by rw [kind]; decide
  unfold dealVersion
  by_cases model : SameModel boot ptr
  · by_cases version : SameVersion boot ptr
    · have notDiffers : ¬VersionDiffers boot ptr :=
        fun differs => differs.2.2 version
      rw [if_pos model, if_pos version]
      refine ⟨?_, (if_neg notAnnounced).symm, (if_neg notDiffers).symm, rfl,
        rfl⟩
      simp only [lineStatus, kind, if_pos model, if_pos version]
      rfl
    · have differs : VersionDiffers boot ptr := ⟨kind, model, version⟩
      rw [if_pos model, if_neg version]
      refine ⟨?_, (if_neg notAnnounced).symm, (if_pos differs).symm, rfl, rfl⟩
      simp only [lineStatus, kind, if_pos model, if_neg version]
  · have notDiffers : ¬VersionDiffers boot ptr := fun differs =>
      model differs.2.1
    rw [if_neg model]
    refine ⟨?_, (if_neg notAnnounced).symm, (if_neg notDiffers).symm, rfl, rfl⟩
    simp only [lineStatus, kind, if_neg model]

theorem dealPacket_eq (boot : Boot) (ptr : List UInt8) :
    ∃ eraseFlag downPackCnt flash, dealPacket boot ptr =
      { boot with
        eraseFlag := eraseFlag
        flash := flash
        pocDevice :=
          { boot.pocDevice with downPackCnt := downPackCnt } } := by
  by_cases passes : PacketPasses boot.pocDevice.downPackCnt ptr
  · rw [dealPacket, if_pos passes]
    exact ⟨_, _, _, rfl⟩
  · rw [dealPacket, if_neg passes]
    exact ⟨boot.eraseFlag, boot.pocDevice.downPackCnt, boot.flash, rfl⟩

theorem pocUartMsgDeal_effect (boot : Boot) (ptr : List UInt8) :
    LineEffect boot ptr (pocUartMsgDeal boot ptr) := by
  have otherKind (notVersion : pocLine ptr ≠ .version) :
      lineVer boot ptr = boot.pocDevice.serverSoftVer :=
    if_neg (fun differs => notVersion differs.1)
  unfold pocUartMsgDeal
  cases kind : pocLine ptr with
  | version => exact dealVersion_effect boot kind
  | downloaded =>
      have version := otherKind (by rw [kind]; decide)
      refine ⟨?_, (if_pos kind).symm, version.symm, rfl, rfl⟩
      simp only [lineStatus, kind]
      rfl
  | packet =>
      have version := otherKind (by rw [kind]; decide)
      have sum : linePackSum boot ptr = boot.pocDevice.packSum :=
        if_neg (by rw [kind]; decide)
      have status : lineStatus boot ptr = boot.pocDevice.status := by
        simp only [lineStatus, kind]
      obtain ⟨eraseFlag, downPackCnt, flash, packet⟩ := dealPacket_eq boot ptr
      simp only [packet]
      exact ⟨status.symm, sum.symm, version.symm, rfl, rfl⟩
  | ok | land | downloading =>
      have version := otherKind (by rw [kind]; decide)
      have sum : linePackSum boot ptr = boot.pocDevice.packSum :=
        if_neg (by rw [kind]; decide)
      refine ⟨?_, sum.symm, version.symm, rfl, rfl⟩
      simp only [lineStatus, kind]
      rfl
  | failure | other =>
      have version := otherKind (by rw [kind]; decide)
      have sum : linePackSum boot ptr = boot.pocDevice.packSum :=
        if_neg (by rw [kind]; decide)
      refine ⟨?_, sum.symm, version.symm, rfl, rfl⟩
      simp only [lineStatus, kind]

theorem pocUartMsgDeal_downloaded (boot : Boot) {ptr : List UInt8}
    (kind : pocLine ptr = .downloaded) :
    pocUartMsgDeal boot ptr = dealDownloaded boot ptr := by
  simp only [pocUartMsgDeal, kind]

theorem dealDownloaded_finished {boot : Boot} {ptr : List UInt8}
    (few : announcedSum ptr ≤ boot.pocDevice.downPackCnt) :
    (dealDownloaded boot ptr).pocDevice.packSum ≤
      (dealDownloaded boot ptr).pocDevice.downPackCnt :=
  few

theorem pocUartMsgDeal_otherSum (boot : Boot) {ptr : List UInt8}
    (other : pocLine ptr ≠ .downloaded) :
    (pocUartMsgDeal boot ptr).pocDevice.packSum = boot.pocDevice.packSum :=
  (pocUartMsgDeal_effect boot ptr).packSum.trans (if_neg other)

theorem pocUartMsgDeal_otherStore (boot : Boot) {ptr : List UInt8}
    (other : pocLine ptr ≠ .packet) :
    (pocUartMsgDeal boot ptr).packetStore = boot.packetStore :=
  (pocUartMsgDeal_packetStore boot ptr).trans
    (PacketStore.receive_of_not_accepts fun accepts => other accepts.1)

theorem pocStep_cfgVer (boot : Boot) (event : PocEvent) :
    (pocStep boot event).cfgVer = boot.cfgVer := by
  cases event with
  | receive ptr =>
      have effect := pocUartMsgDeal_effect boot ptr
      simp only [pocStep, Boot.cfgVer, effect.deviceCfg, effect.pastCfg]
  | poll tick =>
      have requests := pocTaskSwitch_onlyRequests tick boot
      simp only [pocStep, Boot.cfgVer, requests.deviceCfg, requests.pastCfg,
        Boot.setStatus_deviceCfg, Boot.setStatus_pastCfg]

theorem pocRun_cfgVer (start : Boot) (events : List PocEvent) :
    (run pocStep start events).cfgVer = start.cfgVer :=
  run_unchanged Boot.cfgVer pocStep_cfgVer start events

theorem versionDiffers_congr {first second : Boot}
    (sameCfg : first.cfgVer = second.cfgVer) (ptr : List UInt8) :
    VersionDiffers first ptr ↔ VersionDiffers second ptr := by
  unfold VersionDiffers SameModel SameVersion
  rw [sameCfg]

theorem versionEqual_congr {first second : Boot}
    (sameCfg : first.cfgVer = second.cfgVer) (ptr : List UInt8) :
    VersionEqual first ptr ↔ VersionEqual second ptr := by
  unfold VersionEqual SameModel SameVersion
  rw [sameCfg]

theorem announcedVer_getElem (serverSoftVer : Vector UInt8 32)
    (ptr : List UInt8) {index : Nat} (bound : index < 32) :
    (announcedVer serverSoftVer ptr)[index] =
      if index < verLength ptr ∧ index < 18 then byteAt ptr (14 + index)
      else 0 := by
  have moved : byteAt (ptr.drop 14) index = byteAt ptr (14 + index) := by
    simp [byteAt]
  rw [announcedVer, copyOnly_getElem, moved]

theorem pocStep_serverSoftVer (boot : Boot) {event : PocEvent}
    (other : ∀ line, event = .receive line → ¬VersionDiffers boot line) :
    (pocStep boot event).pocDevice.serverSoftVer =
      boot.pocDevice.serverSoftVer := by
  cases event with
  | poll tick =>
      have requests := pocTaskSwitch_onlyRequests tick boot
      have version := congrArg PocDevice.serverSoftVer requests.pocDevice
      exact version
  | receive line =>
      exact (pocUartMsgDeal_effect boot line).serverSoftVer.trans
        (if_neg (other line rfl))

/-- After an announcement, the announced version stays until the next one. -/
theorem pocRun_serverSoftVer {start : Boot} {before after : List PocEvent}
    {line : List UInt8} (differs : VersionDiffers start line)
    (noneSince : ∀ later, .receive later ∈ after →
      ¬VersionDiffers start later) :
    (run pocStep start
        (before ++ .receive line :: after)).pocDevice.serverSoftVer =
      announcedVer
        (run pocStep start before).pocDevice.serverSoftVer line := by
  have cfgVer := pocRun_cfgVer start before
  induction after using List.reverseRecOn with
  | nil =>
      have here := (versionDiffers_congr cfgVer line).mpr differs
      rw [run_concat]
      exact (pocUartMsgDeal_effect _ line).serverSoftVer.trans (if_pos here)
  | append_singleton after last induction =>
      have earlier := induction fun later member =>
        noneSince later (List.mem_append_left _ member)
      have events : before ++ .receive line :: (after ++ [last]) =
          (before ++ .receive line :: after) ++ [last] := by simp
      have reached := pocRun_cfgVer start (before ++ .receive line :: after)
      rw [events, run_concat, ← earlier]
      apply pocStep_serverSoftVer
      rintro later rfl
      rw [versionDiffers_congr reached]
      exact noneSince later (List.mem_append_right _ List.mem_cons_self)

section

variable {boot : Boot} {ptr : List UInt8}

theorem okStatus_cases (status : PocStatus) :
    okStatus status = status ∨ okStatus status = .statusCheckedOk ∨
      okStatus status = .statusShutdowning := by
  cases status <;> simp [okStatus]

theorem landStatus_cases (status : PocStatus) (ptr : List UInt8) :
    landStatus status ptr = status ∨
      landStatus status ptr = .statusLandSuccessed ∨
      landStatus status ptr = .statusLanding := by
  unfold landStatus
  split
  · exact .inr (.inl rfl)
  · split
    · exact .inr (.inr rfl)
    · exact .inl rfl

/-- A line either leaves the status alone or is one of those that set it. -/
theorem lineStatus_cases (boot : Boot) (ptr : List UInt8) :
    lineStatus boot ptr = boot.pocDevice.status ∧ ¬VersionEqual boot ptr ∧
        ¬VersionDiffers boot ptr ∧ pocLine ptr ≠ .downloaded ∨
      pocLine ptr = .ok ∧ (lineStatus boot ptr = .statusCheckedOk ∨
        lineStatus boot ptr = .statusShutdowning) ∨
      pocLine ptr = .land ∧ (lineStatus boot ptr = .statusLandSuccessed ∨
        lineStatus boot ptr = .statusLanding) ∨
      VersionEqual boot ptr ∧ lineStatus boot ptr = .verSame ∨
      VersionDiffers boot ptr ∧ lineStatus boot ptr = .verDwonload ∨
      pocLine ptr = .downloaded ∧ lineStatus boot ptr = .verUpgrade := by
  unfold lineStatus VersionEqual VersionDiffers
  cases kind : pocLine ptr with
  | ok =>
      have cases := okStatus_cases boot.pocDevice.status
      simpa using cases
  | land =>
      have cases := landStatus_cases boot.pocDevice.status ptr
      simpa using cases
  | version =>
      by_cases model : SameModel boot ptr
      · by_cases version : SameVersion boot ptr
        · simp [model, version]
        · simp [model, version]
      · simp [model]
  | _ => simp

theorem lineStatus_of_differs (differs : VersionDiffers boot ptr) :
    lineStatus boot ptr = .verDwonload := by
  simp only [lineStatus, differs.1, if_pos differs.2.1, if_neg differs.2.2]

theorem lineStatus_of_downloaded (kind : pocLine ptr = .downloaded) :
    lineStatus boot ptr = .verUpgrade := by
  simp only [lineStatus, kind]

/-- An upgrade goes on until a line leaves it. -/
theorem lineStatus_keeps_upgrade (stays : ¬LeavesUpgrade boot ptr)
    (upgrade : boot.pocDevice.status = .verUpgrade) :
    lineStatus boot ptr = .verUpgrade := by
  unfold LeavesUpgrade at stays
  rw [not_or] at stays
  unfold lineStatus
  cases kind : pocLine ptr with
  | ok => simp [okStatus, upgrade]
  | land =>
      have other := not_and.mp stays.1 kind
      rw [not_or] at other
      simp [landStatus, other.1, other.2, upgrade]
  | version =>
      have otherModel := not_and.mp stays.2 kind
      simp [otherModel, upgrade]
  | downloaded => rfl
  | _ => exact upgrade

theorem lineStatus_dwonload (status : lineStatus boot ptr = .verDwonload) :
    VersionDiffers boot ptr ∨
      boot.pocDevice.status = .verDwonload ∧ ¬VersionEqual boot ptr := by
  rcases lineStatus_cases boot ptr with ⟨same, notEqual, _⟩ | ⟨_, other⟩ |
    ⟨_, other⟩ | ⟨_, other⟩ | ⟨differs, _⟩ | ⟨_, other⟩
  · exact .inr ⟨same.symm.trans status, notEqual⟩
  · simp [status] at other
  · simp [status] at other
  · simp [status] at other
  · exact .inl differs
  · simp [status] at other

theorem lineStatus_upgrade (status : lineStatus boot ptr = .verUpgrade) :
    pocLine ptr = .downloaded ∨
      boot.pocDevice.status = .verUpgrade ∧ ¬VersionEqual boot ptr := by
  rcases lineStatus_cases boot ptr with ⟨same, notEqual, _⟩ | ⟨_, other⟩ |
    ⟨_, other⟩ | ⟨_, other⟩ | ⟨_, other⟩ | ⟨announced, _⟩
  · exact .inr ⟨same.symm.trans status, notEqual⟩
  · simp [status] at other
  · simp [status] at other
  · simp [status] at other
  · simp [status] at other
  · exact .inl announced

theorem lineStatus_success
    (status : lineStatus boot ptr = .verDwonloadSuccess) :
    boot.pocDevice.status = .verDwonloadSuccess ∧
      pocLine ptr ≠ .downloaded := by
  rcases lineStatus_cases boot ptr with ⟨same, _, _, notAnnounced⟩ |
    ⟨_, other⟩ | ⟨_, other⟩ | ⟨_, other⟩ | ⟨_, other⟩ | ⟨_, other⟩
  · exact ⟨same.symm.trans status, notAnnounced⟩
  · simp [status] at other
  · simp [status] at other
  · simp [status] at other
  · simp [status] at other
  · simp [status] at other

end

end Tp79Boot
