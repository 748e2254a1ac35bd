import Tp79Boot.Success

/-!
# Recalling the installed version

After a success the first 18 bytes of the announced version are saved.  The
next run reads them back with `Flash_Read`, which reverses every word, and
compares them with the announcement when it comes again.
-/

namespace Tp79Boot

open NorMemory EventRun

/-- A version, seven characters before it, and zeros after it. -/
def versionLine (filler version : List UInt8) (zeros : Nat) : List UInt8 :=
  ascii "+POC:42" ++ filler ++ (version ++ List.replicate zeros 0)

/-- The text of an announcement. -/
structure VersionText (filler version : List UInt8) : Prop where
  fillerLength : filler.length = 7
  fillerNonzero : ∀ byte ∈ filler, byte ≠ 0
  nonzero : ∀ byte ∈ version, byte ≠ 0
  short : version.length < 32

/-- The words of the version that are compared read the same from both ends. -/
def Recallable (version : List UInt8) : Prop :=
  ∀ index, index < (if 16 ≤ version.length then 16 else 12) →
    byteAt version (mirrored index) = byteAt version index

instance (version : List UInt8) : Decidable (Recallable version) :=
  inferInstanceAs (Decidable (∀ index, index < _ → _ = _))

section

variable {filler version : List UInt8}

theorem versionLine_kind (filler version : List UInt8) (zeros : Nat) :
    pocLine (versionLine filler version zeros) = .version := by
  have compares (literal : List UInt8) (count : Nat) (inside : count ≤ 7) :
      memcmpEq (versionLine filler version zeros) 0 literal count ↔
        memcmpEq (ascii "+POC:42") 0 literal count := by
    rw [versionLine, List.append_assoc]
    exact memcmpEq_front _ literal inside
  have ok : ¬memcmpEq (versionLine filler version zeros) 0 (ascii "OK") 2 := by
    rw [compares _ 2 (by decide)]
    decide
  have land : ¬memcmpEq (versionLine filler version zeros) 0
      (ascii "+POC:82") 7 := by
    rw [compares _ 7 (by decide)]
    decide
  have announces : memcmpEq (versionLine filler version zeros) 0
      (ascii "+POC:42") 7 := by
    rw [compares _ 7 (by decide)]
    decide
  rw [pocLine, if_neg ok, if_neg land, if_pos announces]

theorem VersionText.frontLength (text : VersionText filler version) :
    (ascii "+POC:42" ++ filler).length = 14 := by
  rw [List.length_append, text.fillerLength]
  rfl

theorem VersionText.byteAt_versionLine (text : VersionText filler version)
    (zeros index : Nat) :
    byteAt (versionLine filler version zeros) (14 + index) =
      byteAt version index := by
  rw [versionLine, ← text.frontLength, byteAt_append_right,
    byteAt_append_zeros]

theorem VersionText.verLength_versionLine (text : VersionText filler version)
    (zeros : Nat) :
    verLength (versionLine filler version zeros) = version.length := by
  have literal : ∀ byte ∈ ascii "+POC:42", byte ≠ 0 :=
    nonzero_of_all (by decide)
  have nonzero : ∀ byte ∈ ascii "+POC:42" ++ filler ++ version, byte ≠ 0 := by
    intro byte member
    rcases List.mem_append.mp member with front | last
    · rcases List.mem_append.mp front with first | second
      · exact literal byte first
      · exact text.fillerNonzero byte second
    · exact text.nonzero byte last
  have length : strlen (versionLine filler version zeros) =
      14 + version.length := by
    rw [versionLine, ← List.append_assoc, strlen_append_zeros,
      strlen_of_nonzero nonzero, List.length_append, text.frontLength]
  have short := text.short
  rw [verLength, length]
  omega

/-- The version field of the next run: the first 18 bytes, every word
reversed, and zeros. -/
theorem VersionText.recalled (text : VersionText filler version) {zeros : Nat}
    {boot : Boot} {earlier : Vector UInt8 32}
    (announced : boot.pocDevice.serverSoftVer =
      announcedVer earlier (versionLine filler version zeros))
    {flash : Flash}
    (kept : ∀ index, index < sizeofDeviceCfg →
      flash.mem (flashAddrUserStart + index) =
        (leaveSuccess boot).flash.mem (flashAddrUserStart + index)) :
    (deviceConfigRead flash).initFlag = 0x66666666 ∧
      ∀ (index : Nat) (bound : index < 32),
        (deviceConfigRead flash).ver[index] =
          if mirrored index < 18 then byteAt version (mirrored index)
          else 0 := by
  rw [deviceConfigRead_congr kept, leaveSuccess_flash]
  refine ⟨deviceConfigRead_saved_initFlag _ _, fun index bound => ?_⟩
  have inside : mirrored index < 32 := mirrored_lt (by decide) bound
  have saved := deviceConfigRead_saved (updatedCfg (deviceConfigRead boot.flash)
    boot.pocDevice.serverSoftVer) (clearBootFlag (eraseBootFlag boot.flash))
    bound
  rw [saved, updatedCfg_ver _ _ inside, announced,
    announcedVer_getElem _ _ inside, text.byteAt_versionLine,
    text.verLength_versionLine]
  by_cases stored : mirrored index < 18
  · by_cases named : mirrored index < version.length
    · rw [if_pos stored, if_pos ⟨named, stored⟩, if_pos stored]
    · rw [if_pos stored, if_neg (fun both => named both.1), if_pos stored,
        byteAt_of_length_le (Nat.le_of_not_lt named)]
  · rw [if_neg stored, if_neg stored]

/-- The announcement, when it comes again, is compared as equal exactly when
the version reads the same from both ends. -/
theorem VersionText.same_iff (text : VersionText filler version) {zeros : Nat}
    {boot : Boot}
    (recalled : ∀ index, index < 32 → byteAt boot.cfgVer index =
      if mirrored index < 18 then byteAt version (mirrored index) else 0) :
    SameModel boot (versionLine filler version zeros) ∧
        SameVersion boot (versionLine filler version zeros) ↔
      Recallable version := by
  have entry {index : Nat} (bound : index < 16) :
      byteAt boot.cfgVer index = byteAt version (mirrored index) := by
    have inside : mirrored index < 16 := mirrored_lt (by decide) bound
    rw [recalled index (by omega), if_pos (by omega)]
  have compares {count : Nat} (few : count ≤ 16) :
      memcmpEq (versionLine filler version zeros) 14 boot.cfgVer count ↔
        ∀ index, index < count →
          byteAt version (mirrored index) = byteAt version index := by
    rw [memcmpEq, bytesAt_eq_iff]
    refine forall₂_congr fun index bound => ?_
    rw [text.byteAt_versionLine, Nat.zero_add,
      entry (Nat.lt_of_lt_of_le bound few)]
    exact eq_comm
  have atMost : strlen boot.cfgVer ≤ 16 := by
    apply strlen_le_of_zero
    rw [recalled 16 (by decide)]
    exact if_neg (by decide)
  unfold SameModel SameVersion Recallable
  by_cases long : 16 ≤ version.length
  · -- The sixteen characters that are read back are all there.
    have atLeast : 16 ≤ strlen boot.cfgVer := by
      apply le_strlen
      intro place bound
      have inside : mirrored place < 16 := mirrored_lt (by decide) bound
      rw [entry bound]
      exact byteAt_ne_zero text.nonzero (Nat.lt_of_lt_of_le inside long)
    have whole : strlen boot.cfgVer = 16 := Nat.le_antisymm atMost atLeast
    rw [whole, compares (by decide), compares (Nat.le_refl 16), if_pos long]
    constructor
    · exact fun both => both.2
    · exact fun same => ⟨fun index bound => same index (by omega), same⟩
  · -- The fourth word was read with a zero in front.
    have fewer : strlen boot.cfgVer ≤ 12 := by
      apply strlen_le_of_zero
      rw [entry (by decide)]
      apply byteAt_of_length_le
      exact Nat.le_of_lt_succ (Nat.lt_of_not_le long)
    rw [compares (by decide), compares atMost, if_neg long]
    constructor
    · exact fun both => both.1
    · exact fun same =>
        ⟨same, fun index bound => same index (Nat.lt_of_lt_of_le bound fewer)⟩

end

theorem lineStatus_same_iff {boot : Boot} {ptr : List UInt8}
    (kind : pocLine ptr = .version)
    (waiting : boot.pocDevice.status ≠ .verSame) :
    lineStatus boot ptr = .verSame ↔
      SameModel boot ptr ∧ SameVersion boot ptr := by
  simp only [lineStatus, kind]
  by_cases model : SameModel boot ptr
  · by_cases version : SameVersion boot ptr
    · simp [model, version]
    · simp [model, version]
  · simp [model, waiting]

theorem bootTask_cfgVer {mem : Mem} {pastCfg : List UInt8}
    (flag : (deviceConfigRead { mem := mem, log := [] }).initFlag =
      0x66666666) :
    (bootTask mem pastCfg).boot.cfgVer =
      (deviceConfigRead { mem := mem, log := [] }).ver.toList ++ pastCfg := by
  simp only [bootTask, deviceInit_of_initFlag flag]
  generalize deviceConfigRead { mem := mem, log := [] } = deviceCfg
  rfl

theorem bootTask_tracks (mem : Mem) (pastCfg : List UInt8)
    (events : List LoopEvent) :
    Tracks (bootTask mem pastCfg).boot
      (run loopStep (bootTask mem pastCfg) events) :=
  loop_tracks _ _ _ events

/-- The line is the last one that announced another version. -/
def LastAnnounced (start : Boot) (events : List PocEvent)
    (line : List UInt8) : Prop :=
  ∃ before after, events = before ++ .receive line :: after ∧
    VersionDiffers start line ∧
    ∀ later, .receive later ∈ after → ¬VersionDiffers start later

theorem LastAnnounced.serverSoftVer {mem : Mem} {pastCfg : List UInt8}
    {events : List LoopEvent} {line : List UInt8}
    (last : LastAnnounced (bootTask mem pastCfg).boot
      (run loopStep (bootTask mem pastCfg) events).history line)
    (success : TakesSuccess (run loopStep (bootTask mem pastCfg) events)) :
    ∃ earlier, (run loopStep (bootTask mem pastCfg)
      events).boot.pocDevice.serverSoftVer = announcedVer earlier line := by
  have tracks := bootTask_tracks mem pastCfg events
  obtain ⟨before, after, history, differs, noneSince⟩ := last
  have reached := tracks.inside (by simp [success.1])
  rw [reached, history]
  exact ⟨_, pocRun_serverSoftVer differs noneSince⟩

section

variable {filler version : List UInt8} {zeros : Nat}

/-- The next run reads the flash that `boot` leaves on success. -/
theorem VersionText.nextRun_same_iff (text : VersionText filler version)
    {boot : Boot} {earlier : Vector UInt8 32}
    (announced : boot.pocDevice.serverSoftVer =
      announcedVer earlier (versionLine filler version zeros))
    {mem : Mem} {pastCfg : List UInt8} {events : List LoopEvent}
    (kept : ∀ index, index < sizeofDeviceCfg →
      mem (flashAddrUserStart + index) =
        (leaveSuccess boot).flash.mem (flashAddrUserStart + index))
    (draining : (run loopStep (bootTask mem pastCfg) events).phase = .draining)
    (waiting : (run loopStep (bootTask mem pastCfg)
      events).boot.pocDevice.status ≠ .verSame) :
    (loopStep (run loopStep (bootTask mem pastCfg) events)
        (.receive (versionLine filler version zeros))).boot.pocDevice.status =
          .verSame ↔
      Recallable version := by
  obtain ⟨flag, ver⟩ := @VersionText.recalled _ _ text zeros boot earlier
    announced { mem := mem, log := [] } kept
  have tracks := bootTask_tracks mem pastCfg events
  have cfgVer := @bootTask_cfgVer mem pastCfg flag
  generalize run loopStep (bootTask mem pastCfg) events = download at *
  have reached := tracks.inside (by simp [draining])
  have recalled : ∀ index, index < 32 → byteAt download.boot.cfgVer index =
      if mirrored index < 18 then byteAt version (mirrored index) else 0 := by
    intro index bound
    rw [reached, pocRun_cfgVer, cfgVer,
      byteAt_append_left (by simpa using bound), byteAt_toList _ bound,
      ver index bound]
  have effect := pocUartMsgDeal_effect download.boot
    (versionLine filler version zeros)
  simp only [loopStep, if_pos draining]
  rw [effect.status,
    lineStatus_same_iff (versionLine_kind filler version zeros) waiting,
    text.same_iff recalled]

/-- A run has installed a version, and the next run reads the flash it has
left.  The announcement of that version, when it comes again, is answered with
`POC_DEVICE_VER_SAME` exactly when the words of the version that are compared
read the same from both ends. -/
theorem version_recalled_iff {mem nextMem : Mem}
    {pastCfg nextPastCfg : List UInt8} {events nextEvents : List LoopEvent}
    (text : VersionText filler version)
    (success : TakesSuccess (run loopStep (bootTask mem pastCfg) events))
    (last : LastAnnounced (bootTask mem pastCfg).boot
      (run loopStep (bootTask mem pastCfg) events).history
      (versionLine filler version zeros))
    (kept : ∀ index, index < sizeofDeviceCfg →
      nextMem (flashAddrUserStart + index) =
        (loopStep (run loopStep (bootTask mem pastCfg) events)
          .branch).boot.flash.mem (flashAddrUserStart + index))
    (draining : (run loopStep (bootTask nextMem nextPastCfg)
      nextEvents).phase = .draining)
    (waiting : (run loopStep (bootTask nextMem nextPastCfg)
      nextEvents).boot.pocDevice.status ≠ .verSame) :
    (loopStep (run loopStep (bootTask nextMem nextPastCfg) nextEvents)
        (.receive (versionLine filler version zeros))).boot.pocDevice.status =
          .verSame ↔
      Recallable version := by
  obtain ⟨earlier, announced⟩ := last.serverSoftVer success
  rw [success.leaves] at kept
  exact text.nextRun_same_iff announced kept draining waiting

end

/-- A flash whose stored configuration is read as `deviceCfg`. -/
def cfgMem (deviceCfg : DeviceCfg) : Mem := fun address =>
  byteAt (deviceCfgBytes deviceCfg) (mirrored (address - flashAddrUserStart))

theorem cfgMem_read {deviceCfg : DeviceCfg} {flash : Flash}
    (held : flash.mem = cfgMem deviceCfg)
    (flag : deviceCfg.initFlag = 0x66666666) :
    deviceConfigRead flash = deviceCfg := by
  have stored (place : Nat) :
      flash.mem (flashAddrUserStart + place) =
        byteAt (deviceCfgBytes deviceCfg) (mirrored place) := by
    rw [held, cfgMem, Nat.add_sub_cancel_left]
  have sameFlag : (deviceConfigRead flash).initFlag = deviceCfg.initFlag := by
    have first := stored 0
    rw [Nat.add_zero] at first
    have front {place : Nat} (bound : place < 4) :
        byteAt (deviceCfgBytes deviceCfg) (mirrored place) =
          byteAt (wordBytes 0x66666666) (mirrored place) := by
      have inside : mirrored place < 4 := mirrored_lt (by decide) bound
      rw [deviceCfgBytes, flag]
      exact byteAt_append_left (by simpa using inside) _
    rw [deviceConfigRead_initFlag, stored, stored, stored, first,
      front (by decide), front (by decide), front (by decide),
      front (by decide), flag]
    decide
  have sameVer : (deviceConfigRead flash).ver = deviceCfg.ver := by
    apply Vector.ext
    intro index bound
    have position : mirrored (4 + mirrored index) = 4 + index := by
      unfold mirrored
      omega
    rw [deviceConfigRead_ver _ bound, stored, position,
      deviceCfgBytes_ver _ bound]
  generalize deviceConfigRead flash = read at sameFlag sameVer
  cases read
  cases deviceCfg
  simp_all

/-- An update of one packet installs the version that is announced first. -/
theorem updateEvents_installs {mem : Mem} {pastCfg : List UInt8}
    {line : List UInt8}
    (differs : VersionDiffers (bootTask mem pastCfg).boot line) :
    TakesSuccess (run loopStep (bootTask mem pastCfg) (updateEvents [line])) ∧
      LastAnnounced (bootTask mem pastCfg).boot
        (run loopStep (bootTask mem pastCfg) (updateEvents [line])).history
        line := by
  have others : ∀ other ∈ [line], pocLine other ≠ .packet := by
    intro other member
    rw [List.mem_singleton.mp member, differs.1]
    decide
  have polling : (bootTask mem pastCfg).phase = .polling := rfl
  have fresh : (bootTask mem pastCfg).boot.pocDevice.downPackCnt = 0 := rfl
  have noHistory : (bootTask mem pastCfg).history = [] := rfl
  obtain ⟨success, history⟩ := updateEvents_success polling fresh others
  refine ⟨success, [.poll 0],
    [.receive onePacket, .receive (zeroPacket 0), .poll 0], ?_, differs, ?_⟩
  · rw [history, noHistory]
    rfl
  · intro later member
    simp only [List.mem_cons, PocEvent.receive.injEq, reduceCtorEq,
      List.not_mem_nil, or_false] at member
    rintro ⟨kind, _⟩
    rcases member with rfl | rfl
    · have announced : pocLine onePacket = .downloaded := by decide
      cases announced.symm.trans kind
    · rw [zeroPacket, packetLine_kind] at kind
      cases kind

theorem bootTask_polled (mem : Mem) (pastCfg : List UInt8) :
    (run loopStep (bootTask mem pastCfg) [.poll 0]).phase = .draining ∧
      (run loopStep (bootTask mem pastCfg)
        [.poll 0]).boot.pocDevice.status ≠ .verSame := by
  have polling : (bootTask mem pastCfg).phase = .polling := rfl
  have starting : (bootTask mem pastCfg).boot.pocDevice.status =
      .statusStarting := rfl
  have polled := run_turn 0 [] polling
  generalize bootTask mem pastCfg = download at *
  have requests := pocTaskSwitch_onlyRequests 0 download.boot
  rw [turn, List.map_nil] at polled
  rw [polled]
  refine ⟨rfl, ?_⟩
  intro same
  have status := congrArg PocDevice.status requests.pocDevice
  rw [Boot.setStatus_pocDevice_status, switchedStatus, starting] at status
  cases status.symm.trans same

theorem cfgMem_cfgVer {deviceCfg : DeviceCfg}
    (flag : deviceCfg.initFlag = 0x66666666) (pastCfg : List UInt8) :
    (bootTask (cfgMem deviceCfg) pastCfg).boot.cfgVer =
      deviceCfg.ver.toList ++ pastCfg := by
  generalize held : cfgMem deviceCfg = mem
  have read : deviceConfigRead { mem := mem, log := [] } = deviceCfg :=
    cfgMem_read held.symm flag
  rw [bootTask_cfgVer (by rw [read, flag]), read]

/-- A version whose words read the same from both ends. -/
def mirroredVersion : List UInt8 := ascii "ABBACDDCEFFEGHHG"

/-- A board that runs another version for the same model. -/
def mirroredCfg : DeviceCfg :=
  { initFlag := 0x66666666
    ver := memcpyField (Vector.replicate 32 0) (ascii "ABBACDDCEFFEGIIG") 16 }

theorem mirroredVersion_text :
    VersionText (ascii "0001020") mirroredVersion :=
  ⟨by decide, nonzero_of_all (by decide), nonzero_of_all (by decide),
    by decide⟩

theorem mirroredVersion_differs :
    VersionDiffers (bootTask (cfgMem mirroredCfg) []).boot
      (versionLine (ascii "0001020") mirroredVersion 0) := by
  unfold VersionDiffers SameModel SameVersion
  rw [cfgMem_cfgVer rfl]
  decide

theorem version_recalled_mirrored :
    ∃ nextMem : Mem,
      (∀ index, index < sizeofDeviceCfg →
        nextMem (flashAddrUserStart + index) =
          (loopStep (run loopStep (bootTask (cfgMem mirroredCfg) [])
            (updateEvents [versionLine (ascii "0001020") mirroredVersion 0]))
              .branch).boot.flash.mem (flashAddrUserStart + index)) ∧
      (loopStep (run loopStep (bootTask nextMem []) [.poll 0])
        (.receive (versionLine (ascii "0001020") mirroredVersion
          0))).boot.pocDevice.status = .verSame := by
  obtain ⟨success, last⟩ := updateEvents_installs mirroredVersion_differs
  obtain ⟨nextMem, kept⟩ : ∃ nextMem : Mem, ∀ index,
      index < sizeofDeviceCfg → nextMem (flashAddrUserStart + index) =
        (loopStep (run loopStep (bootTask (cfgMem mirroredCfg) [])
          (updateEvents [versionLine (ascii "0001020") mirroredVersion 0]))
            .branch).boot.flash.mem (flashAddrUserStart + index) :=
    ⟨_, fun _ _ => rfl⟩
  obtain ⟨draining, waiting⟩ := bootTask_polled nextMem []
  refine ⟨nextMem, kept, ?_⟩
  apply (version_recalled_iff mirroredVersion_text success last kept draining
    waiting).mpr
  decide

/-- The version after `verSoft`. -/
def nextVersion : List UInt8 := ascii "TYT_TP79V02_V191"

theorem nextVersion_text : VersionText (ascii "0001020") nextVersion :=
  ⟨by decide, nonzero_of_all (by decide), nonzero_of_all (by decide),
    by decide⟩

theorem nextVersion_differs :
    VersionDiffers (bootTask (cfgMem installedCfg) []).boot
      (versionLine (ascii "0001020") nextVersion 0) := by
  unfold VersionDiffers SameModel SameVersion
  rw [cfgMem_cfgVer rfl]
  decide

/-- It is installed, and the next run does not recall it. -/
theorem version_recalled_nextVersion :
    ¬∀ (mem nextMem : Mem) (pastCfg nextPastCfg : List UInt8)
      (events nextEvents : List LoopEvent) (filler version : List UInt8)
      (zeros : Nat),
      VersionText filler version →
      TakesSuccess (run loopStep (bootTask mem pastCfg) events) →
      LastAnnounced (bootTask mem pastCfg).boot
        (run loopStep (bootTask mem pastCfg) events).history
        (versionLine filler version zeros) →
      (∀ index, index < sizeofDeviceCfg →
        nextMem (flashAddrUserStart + index) =
          (loopStep (run loopStep (bootTask mem pastCfg) events)
            .branch).boot.flash.mem (flashAddrUserStart + index)) →
      (run loopStep (bootTask nextMem nextPastCfg) nextEvents).phase =
        .draining →
      (run loopStep (bootTask nextMem nextPastCfg)
        nextEvents).boot.pocDevice.status ≠ .verSame →
      (loopStep (run loopStep (bootTask nextMem nextPastCfg) nextEvents)
        (.receive (versionLine filler version zeros))).boot.pocDevice.status =
          .verSame := by
  intro recalled
  obtain ⟨success, last⟩ := updateEvents_installs nextVersion_differs
  obtain ⟨earlier, announced⟩ := last.serverSoftVer success
  obtain ⟨nextMem, kept⟩ : ∃ nextMem : Mem, ∀ index,
      index < sizeofDeviceCfg → nextMem (flashAddrUserStart + index) =
        (loopStep (run loopStep (bootTask (cfgMem installedCfg) [])
          (updateEvents [versionLine (ascii "0001020") nextVersion 0]))
            .branch).boot.flash.mem (flashAddrUserStart + index) :=
    ⟨_, fun _ _ => rfl⟩
  obtain ⟨draining, waiting⟩ := bootTask_polled nextMem []
  have status := recalled _ nextMem [] [] _ [.poll 0] _ _ 0 nextVersion_text
    success last kept draining waiting
  rw [success.leaves] at kept
  have same := (nextVersion_text.nextRun_same_iff announced kept draining
    waiting).mp status
  exact absurd same (by decide)

end Tp79Boot
