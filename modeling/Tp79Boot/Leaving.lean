import Tp79Boot.Download

/-!
# Leaving the loop

Each of the three ways out clears the boot flag.  None of them erases a page of
the application, and none changes what the protocol knows of the packets.
-/

namespace Tp79Boot

open NorMemory

/-- A page of the application has been erased. -/
def AppErased (flash : Flash) : Prop :=
  ∃ op ∈ eraseAppOps, op ∈ flash.log

theorem appErased_of_subset {flash : Flash}
    (erased : eraseAppOps ⊆ flash.log) : AppErased flash := by
  have first : Op.erase (startAddress + 0 * 0x800) ∈ eraseAppOps :=
    List.mem_map.mpr ⟨0, List.mem_range.mpr (by decide), rfl⟩
  exact ⟨_, first, erased first⟩

/-- What was done in between erased no page of the application. -/
def Elsewhere (before after : Flash) : Prop :=
  ∃ ops, after.log = before.log ++ ops ∧ ∀ op ∈ ops, op ∉ eraseAppOps

theorem Elsewhere.trans {first second third : Flash}
    (earlier : Elsewhere first second) (later : Elsewhere second third) :
    Elsewhere first third := by
  obtain ⟨ops, log, elsewhere⟩ := earlier
  obtain ⟨more, longer, further⟩ := later
  refine ⟨ops ++ more, by rw [longer, log, List.append_assoc], ?_⟩
  intro op member
  rcases List.mem_append.mp member with before | after
  · exact elsewhere op before
  · exact further op after

theorem Elsewhere.erased_iff {before after : Flash}
    (elsewhere : Elsewhere before after) {op : Op} (inApp : op ∈ eraseAppOps) :
    op ∈ after.log ↔ op ∈ before.log := by
  obtain ⟨ops, log, outside⟩ := elsewhere
  rw [log, List.mem_append, or_iff_left]
  exact fun member => outside op member inApp

theorem Elsewhere.appErased_iff {before after : Flash}
    (elsewhere : Elsewhere before after) :
    AppErased after ↔ AppErased before := by
  refine exists_congr fun op => and_congr_right fun inApp => ?_
  exact elsewhere.erased_iff inApp

theorem reserve_le_bootFlag : flashAddrReserve ≤ flashAddrBootFlag :=
  Nat.le_add_right _ 2048

theorem reserve_le_userStart : flashAddrReserve ≤ flashAddrUserStart :=
  Nat.le_trans reserve_le_bootFlag (Nat.le_add_right _ 2048)

theorem erase_elsewhere {address : Nat} (past : flashAddrReserve ≤ address) :
    Op.erase address ∉ eraseAppOps := by
  intro member
  obtain ⟨page, bound, same⟩ := List.mem_map.mp member
  have below := List.mem_range.mp bound
  injection same with position
  unfold startAddress at position
  unfold flashAddrReserve at past
  omega

theorem program_elsewhere (address : Nat) (bytes : List UInt8) :
    Op.program address bytes ∉ eraseAppOps := by
  intro member
  obtain ⟨page, _, same⟩ := List.mem_map.mp member
  cases same

theorem erasePage_elsewhere (flash : Flash) {address : Nat}
    (past : flashAddrReserve ≤ address) :
    Elsewhere flash (flash.execAll stm32f103ve (eraseOps address 1)) := by
  refine ⟨_, Device.execAll_log _, ?_⟩
  intro op member
  obtain ⟨page, _, rfl⟩ := List.mem_map.mp member
  exact erase_elsewhere (Nat.le_add_right_of_le past)

theorem flashWrite_elsewhere (flash : Flash) (startAddr : Nat)
    (data : List UInt8) (size : Nat) :
    Elsewhere flash (flashWrite flash startAddr data size) := by
  rw [flashWrite_eq]
  refine ⟨_, Device.execAll_log _, ?_⟩
  intro op member
  obtain ⟨word, _, rfl⟩ := List.mem_map.mp member
  exact program_elsewhere _ _

theorem bootFlag_onePage : OnePage flashAddrBootFlag 4 := by
  constructor
  · decide
  · decide

theorem bootFlag_congr {first second : Flash}
    (same : ∀ place, place < 4 →
      first.mem (flashAddrBootFlag + place) =
        second.mem (flashAddrBootFlag + place)) :
    bootFlag first = bootFlag second := by
  have bytes : flashRead first flashAddrBootFlag 4 =
      flashRead second flashAddrBootFlag 4 := by
    apply (eq_iff_byteAt (by simp)).mpr
    intro index bound
    rw [flashRead_length] at bound
    rw [flashRead_byteAt _ _ bound, flashRead_byteAt _ _ bound,
      same _ (mirrored_lt (by decide) bound)]
  unfold bootFlag
  rw [bytes]

theorem clearBootFlag_elsewhere (flash : Flash) :
    Elsewhere flash (clearBootFlag flash) := by
  obtain ⟨ops, log, kinds⟩ := flashUpdata_log flash (wordBytes 0)
    bootFlag_onePage (by decide) (by decide)
  refine ⟨ops, log, ?_⟩
  intro op member
  rcases kinds op member with rfl | rfl | ⟨address, bytes, rfl⟩
  · exact erase_elsewhere (Nat.le_refl _)
  · exact erase_elsewhere reserve_le_bootFlag
  · exact program_elsewhere address bytes

theorem clearBootFlag_bootFlag (flash : Flash) :
    bootFlag (clearBootFlag flash) = 0 := by
  have cleared {place : Nat} (bound : place < 4) :
      (clearBootFlag flash).mem (flashAddrBootFlag + place) = 0 := by
    have flashAddress : stm32f103ve.Contains (flashAddrBootFlag + place) := by
      unfold Geometry.Contains flashAddrBootFlag flashAddrReserve
      simp only [stm32f103ve]
      omega
    rw [clearBootFlag, flashUpdata_inside flash _ bootFlag_onePage (by decide)
      (by decide) flashAddress ⟨by omega, by omega⟩, Nat.add_sub_cancel_left]
    exact byteAt_replicate_zero 4 place
  have bytes : flashRead (clearBootFlag flash) flashAddrBootFlag 4 =
      List.replicate 4 0 := by
    apply (eq_iff_byteAt (by simp)).mpr
    intro index bound
    rw [List.length_replicate] at bound
    rw [flashRead_byteAt _ _ bound, cleared (mirrored_lt (by decide) bound),
      byteAt_replicate_zero]
  rw [bootFlag, bytes]
  rfl

theorem eraseBootFlag_eq (flash : Flash) :
    eraseBootFlag flash =
      flash.execAll stm32f103ve (eraseOps flashAddrBootFlag 1) := by
  have erased := flashErase_eq flash flashAddrBootFlag onePage_turns
  simp [eraseBootFlag, erased]

theorem eraseBootFlag_elsewhere (flash : Flash) :
    Elsewhere flash (eraseBootFlag flash) := by
  rw [eraseBootFlag_eq]
  exact erasePage_elsewhere flash reserve_le_bootFlag

theorem deviceConfigSaveFlash_elsewhere (deviceCfg : DeviceCfg)
    (flash : Flash) :
    Elsewhere flash (deviceConfigSaveFlash deviceCfg flash) := by
  rw [deviceConfigSaveFlash_eq]
  exact (erasePage_elsewhere flash reserve_le_userStart).trans
    (flashWrite_elsewhere _ _ _ _)

theorem deviceConfigSaveFlash_bootFlag (deviceCfg : DeviceCfg)
    (flash : Flash) :
    bootFlag (deviceConfigSaveFlash deviceCfg flash) = bootFlag flash := by
  apply bootFlag_congr
  intro place bound
  apply deviceConfigSaveFlash_outside
  unfold flashAddrUserStart
  omega

namespace Exit

variable {boot after : Boot}

theorem bootFlag (leaving : Exit boot after) :
    Tp79Boot.bootFlag after.flash = 0 := by
  cases leaving with
  | same =>
      rw [leaveSame_flash]
      exact clearBootFlag_bootFlag boot.flash
  | success =>
      rw [leaveSuccess_flash, deviceConfigSaveFlash_bootFlag]
      exact clearBootFlag_bootFlag (eraseBootFlag boot.flash)
  | timeout =>
      rw [leaveTimeout_flash]
      exact clearBootFlag_bootFlag (eraseBootFlag boot.flash)

theorem elsewhere (leaving : Exit boot after) :
    Elsewhere boot.flash after.flash := by
  have cleared : Elsewhere boot.flash
      (clearBootFlag (eraseBootFlag boot.flash)) :=
    (eraseBootFlag_elsewhere boot.flash).trans (clearBootFlag_elsewhere _)
  cases leaving with
  | same =>
      rw [leaveSame_flash]
      exact clearBootFlag_elsewhere boot.flash
  | success =>
      rw [leaveSuccess_flash]
      exact cleared.trans (deviceConfigSaveFlash_elsewhere _ _)
  | timeout =>
      rw [leaveTimeout_flash]
      exact cleared

theorem pocDevice (leaving : Exit boot after) :
    after.pocDevice = boot.pocDevice := by
  cases leaving with
  | same => rw [leaveSame]
  | success => rw [leaveSuccess]
  | timeout => rw [leaveTimeout]

theorem notUpgrade (leaving : Exit boot after) :
    boot.pocDevice.status ≠ .verUpgrade := by
  cases leaving with
  | same status => simp [status]
  | success status => simp [status]
  | timeout status => exact status

end Exit

theorem clearBootFlag_before (flash : Flash) {target : Nat}
    (before : target < flashAddrReserve) :
    (clearBootFlag flash).mem target = flash.mem target := by
  apply flashUpdata_outside flash _ bootFlag_onePage (by decide) (by decide)
  · unfold pageOf flashAddrBootFlag flashAddrReserve at *
    omega
  · unfold pageOf flashAddrReserve at *
    omega

theorem eraseBootFlag_before (flash : Flash) {target : Nat}
    (before : target < flashAddrReserve) :
    (eraseBootFlag flash).mem target = flash.mem target := by
  have aligned : 0x800 ∣ flashAddrBootFlag := by decide
  have outside : ¬(stm32f103ve.Contains target ∧ flashAddrBootFlag ≤ target ∧
      target < flashAddrBootFlag + 1 * 0x800) := by
    unfold flashAddrBootFlag
    omega
  rw [eraseBootFlag_eq, Device.execAll_mem, replay_eraseOps aligned,
    if_neg outside]

theorem deviceConfigSaveFlash_before (deviceCfg : DeviceCfg) (flash : Flash)
    {target : Nat} (before : target < flashAddrReserve) :
    (deviceConfigSaveFlash deviceCfg flash).mem target =
      flash.mem target := by
  apply deviceConfigSaveFlash_outside
  unfold flashAddrUserStart flashAddrBootFlag
  omega

/-- Everything before the reserve page is as it was. -/
theorem Exit.before {boot after : Boot} (leaving : Exit boot after)
    {target : Nat} (before : target < flashAddrReserve) :
    after.flash.mem target = boot.flash.mem target := by
  have cleared : (clearBootFlag (eraseBootFlag boot.flash)).mem target =
      boot.flash.mem target := by
    rw [clearBootFlag_before _ before, eraseBootFlag_before _ before]
  cases leaving with
  | same =>
      rw [leaveSame_flash]
      exact clearBootFlag_before _ before
  | success =>
      rw [leaveSuccess_flash, deviceConfigSaveFlash_before _ _ before]
      exact cleared
  | timeout =>
      rw [leaveTimeout_flash]
      exact cleared

end Tp79Boot
