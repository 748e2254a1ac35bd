import Tp79Boot.Poc.Link
import Tp79Boot.UpdateSafety

/-!
# Lives of a device

A device is switched on again and again, and its power can go after any
operation on the flash.  At each start `main` looks at the boot flag: the boot
program runs when it is set and the application otherwise.  Half an application
must never be started, however often the power goes.
-/

namespace Tp79Boot

open NorMemory EventRun NumberedTransfer

/-- What happens after power-up: the image the server has, the memory after
`device_cfg`, what happens to the loop, after how many operations on the flash
the power goes, and what the application does to the flash if it is started. -/
structure PowerOn where
  image : List (List UInt8)
  pastCfg : List UInt8
  events : List LoopEvent
  cut : Nat
  application : Mem → Mem

/-- The operations of `boot_task`, of `device_init` first. -/
def loaderOps (mem : Mem) (start : PowerOn) : List Op :=
  (deviceInit { mem := mem, log := [] }).2.log ++
    (run loopStep (bootTask mem start.pastCfg) start.events).boot.flash.log

/-- What is left in flash.  A boot program that is done clears the flag, and
the application it jumps to is that of the next start. -/
def powerOn (mem : Mem) (start : PowerOn) : Mem :=
  if bootFlag { mem := mem, log := [] } = 0x88888888 then
    replay stm32f103ve ((loaderOps mem start).take start.cut) mem
  else start.application mem

/-- Past the application: the reserve page, the boot flag and the
configuration. -/
def PastApp (target : Nat) : Prop := flashAddrReserve ≤ target

def InConfig (target : Nat) : Prop := flashAddrUserStart ≤ target

def BeforeReserve (target : Nat) : Prop := target < flashAddrReserve

theorem pageOf_le (address : Nat) : pageOf address ≤ address := by
  unfold pageOf
  omega

theorem eraseOps_touches {startAddr pages target : Nat} {op : Op}
    (aligned : 0x800 ∣ startAddr) (member : op ∈ eraseOps startAddr pages)
    (touched : op.Touches stm32f103ve target) :
    startAddr ≤ target ∧ target < startAddr + pages * 0x800 := by
  obtain ⟨page, inside, rfl⟩ := List.mem_map.mp member
  have below := List.mem_range.mp inside
  have same : target / 0x800 = (startAddr + page * 0x800) / 0x800 := touched.2
  omega

theorem writeOps_touches {startAddr words target : Nat} {data : List UInt8}
    {op : Op} (member : op ∈ writeOps startAddr data words)
    (touched : op.Touches stm32f103ve target) :
    startAddr ≤ target ∧ target < startAddr + 4 * words := by
  obtain ⟨turn, inside, rfl⟩ := List.mem_map.mp member
  have below := List.mem_range.mp inside
  obtain ⟨_, above, beneath⟩ := touched
  rw [bytesAt_length] at beneath
  omega

/-- What was done in between touched only the region. -/
def Done (region : Nat → Prop) (before after : Flash) : Prop :=
  ∃ ops, after = before.execAll stm32f103ve ops ∧
    Within stm32f103ve region ops

namespace Done

variable {region : Nat → Prop} {first second third : Flash}

theorem refl (flash : Flash) : Done region flash flash :=
  ⟨[], rfl, within_nil⟩

theorem trans (earlier : Done region first second)
    (later : Done region second third) : Done region first third := by
  obtain ⟨ops, rfl, inside⟩ := earlier
  obtain ⟨more, rfl, further⟩ := later
  exact ⟨ops ++ more, (Device.execAll_append _ _).symm,
    inside.append further⟩

theorem mono {wider : Nat → Prop} (done : Done region first second)
    (covers : ∀ target, region target → wider target) :
    Done wider first second := by
  obtain ⟨ops, runs, inside⟩ := done
  exact ⟨ops, runs, inside.mono covers⟩

end Done

theorem deviceConfigSaveFlash_done (deviceCfg : DeviceCfg) (flash : Flash) :
    Done InConfig flash (deviceConfigSaveFlash deviceCfg flash) := by
  have aligned : 0x800 ∣ flashAddrUserStart := by decide
  rw [deviceConfigSaveFlash_eq, flashWrite_eq]
  refine Done.trans ⟨_, rfl, ?_⟩ ⟨_, rfl, ?_⟩
  · intro op member target touched
    exact (eraseOps_touches aligned member touched).1
  · intro op member target touched
    exact (writeOps_touches member touched).1

theorem deviceInit_done (flash : Flash) :
    Done InConfig flash (deviceInit flash).2 := by
  simp only [deviceInit]
  split
  · exact deviceConfigSaveFlash_done _ _
  · exact Done.refl flash

theorem eraseBootFlag_done (flash : Flash) :
    Done PastApp flash (eraseBootFlag flash) := by
  have aligned : 0x800 ∣ flashAddrBootFlag := by decide
  rw [eraseBootFlag_eq]
  refine ⟨_, rfl, ?_⟩
  intro op member target touched
  exact Nat.le_trans reserve_le_bootFlag
    (eraseOps_touches aligned member touched).1

theorem clearBootFlag_done (flash : Flash) :
    Done PastApp flash (clearBootFlag flash) := by
  obtain ⟨saving, rewriting, runs, inReserve, inPage, _⟩ :=
    flashUpdata_halves flash (wordBytes 0) bootFlag_onePage.2
      (show pageOf flashAddrBootFlag ≠ flashAddrReserve by decide)
  refine ⟨_, runs, Within.append ?_ ?_⟩
  · intro op member target touched
    have below := pageOf_le target
    rw [inReserve op member target touched] at below
    exact below
  · intro op member target touched
    have page := inPage op member target touched
    have own : pageOf flashAddrBootFlag = flashAddrBootFlag := by decide
    have below := pageOf_le target
    rw [page, own] at below
    exact Nat.le_trans reserve_le_bootFlag below

theorem Exit.done {boot after : Boot} (leaving : Exit boot after) :
    Done PastApp boot.flash after.flash := by
  have cleared : Done PastApp boot.flash
      (clearBootFlag (eraseBootFlag boot.flash)) :=
    (eraseBootFlag_done boot.flash).trans (clearBootFlag_done _)
  cases leaving with
  | same =>
      rw [leaveSame_flash]
      exact clearBootFlag_done boot.flash
  | success =>
      rw [leaveSuccess_flash]
      exact cleared.trans ((deviceConfigSaveFlash_done _ _).mono
        fun _ inside => Nat.le_trans reserve_le_userStart inside)
  | timeout =>
      rw [leaveTimeout_flash]
      exact cleared

/-- A packet that lies before the reserve page touches nothing else. -/
theorem receive_done {store : PacketStore} {line : List UInt8}
    (inside : store.Accepts line → store.downPackCnt.toNat < 1936) :
    Done BeforeReserve store.flash (store.receive line).flash := by
  by_cases accepts : store.Accepts line
  · have below := inside accepts
    have aligned : 0x800 ∣ startAddress := by decide
    have prepared : Done BeforeReserve store.flash store.prepared := by
      unfold PacketStore.prepared
      split
      · rw [eraseApp_eq]
        refine ⟨_, rfl, ?_⟩
        intro op member target touched
        have area := (eraseOps_touches aligned member touched).2
        unfold BeforeReserve flashAddrReserve
        unfold startAddress at area
        omega
      · exact Done.refl _
    simp only [PacketStore.receive_of_accepts accepts, PacketStore.accept,
      PacketStore.written, flashWrite_eq]
    refine prepared.trans ⟨_, rfl, ?_⟩
    intro op member target touched
    have block := (writeOps_touches member touched).2
    unfold PacketStore.nextBlock blockAddr startAddress at block
    unfold BeforeReserve flashAddrReserve
    omega
  · rw [PacketStore.receive_of_not_accepts accepts]
    exact Done.refl _

/-- A line of an orderly update: a login notice or a version does not come in
an unfinished update, an announcement gives the size of the image, packets
pass only after it, and only packets of the image come. -/
structure OrderlyLine (image : List (List UInt8)) (boot : Boot)
    (line : List UInt8) : Prop where
  leaving : LeavesUpgrade boot line → ¬Unfinished boot
  announcing : pocLine line = .downloaded →
    (announcedSum line).toNat = image.length
  storing : boot.packetStore.Accepts line → boot.pocDevice.packSum ≠ 0 ∧
    (boot.pocDevice.status = .verUpgrade ∨
      boot.pocDevice.packSum ≤ boot.pocDevice.downPackCnt)
  genuine : ∀ delivery, packetDelivery line = some delivery →
    delivery ∈ numbered image

/-- The lines are orderly, and the loop is given up, because the version is
the stored one or because of the time, only when the application was in order
at the start. -/
def OrderlyEvent (image : List (List UInt8)) (sound : Prop)
    (download : Download) : LoopEvent → Prop
  | .receive line =>
      download.phase = .draining → OrderlyLine image download.boot line
  | .branch =>
      download.phase = .draining →
        download.boot.pocDevice.status = .verSame → sound
  | .timeout tick =>
      download.phase = .branched →
        download.boot.pocDevice.status ≠ .verUpgrade → tick > 300000 → sound
  | .poll _ => True

theorem OrderlyEvent.mono {image : List (List UInt8)} {sound other : Prop}
    {download : Download} {event : LoopEvent}
    (orderly : OrderlyEvent image sound download event)
    (implies : sound → other) : OrderlyEvent image other download event := by
  cases event with
  | poll tick => trivial
  | receive line => exact orderly
  | branch => exact fun draining status => implies (orderly draining status)
  | timeout tick =>
      exact fun branched status late => implies (orderly branched status late)

/-- What holds inside the loop of an orderly start from flash contents
`first`. -/
structure Secure (image : List (List UInt8)) (first : Mem) (boot : Boot) :
    Prop where
  guarded : Guarded boot
  done : Done BeforeReserve { mem := first, log := [] } boot.flash
  untouched : boot.eraseFlag = 0 → boot.flash = { mem := first, log := [] }
  started : boot.packetStore.Started
  ahead : boot.packetStore.BlankAhead
  front : boot.packetStore.received <+: image
  announced : boot.pocDevice.packSum ≠ 0 →
    boot.pocDevice.packSum.toNat = image.length
  upgraded : boot.pocDevice.status = .verUpgrade → boot.pocDevice.packSum ≠ 0
  met : boot.pocDevice.status = .verDwonloadSuccess →
    image.length ≤ boot.pocDevice.downPackCnt.toNat

section

variable {image : List (List UInt8)} {first : Mem} {boot : Boot}

theorem Secure.count_le (secure : Secure image first boot) :
    boot.pocDevice.downPackCnt.toNat ≤ image.length := by
  have lengths := secure.front.length_le
  rw [PacketStore.received_length] at lengths
  exact lengths

theorem Secure.complete (secure : Secure image first boot)
    (enough : image.length ≤ boot.pocDevice.downPackCnt.toNat) :
    boot.packetStore.received = image := by
  apply secure.front.eq_of_length_le
  rw [PacketStore.received_length]
  exact enough

theorem Secure.poll (secure : Secure image first boot) (tick : UInt32) :
    Secure image first (pocTaskSwitch tick boot) := by
  have requests := pocTaskSwitch_onlyRequests tick boot
  have store := pocTaskSwitch_packetStore tick boot
  have flash : (pocTaskSwitch tick boot).flash = boot.flash :=
    congrArg PacketStore.flash store
  have flag : (pocTaskSwitch tick boot).eraseFlag = boot.eraseFlag :=
    congrArg PacketStore.eraseFlag store
  have sum : (pocTaskSwitch tick boot).pocDevice.packSum =
      boot.pocDevice.packSum := by
    rw [requests.pocDevice]
    rfl
  have counter : (pocTaskSwitch tick boot).pocDevice.downPackCnt =
      boot.pocDevice.downPackCnt := congrArg PacketStore.downPackCnt store
  have status : (pocTaskSwitch tick boot).pocDevice.status =
      switchedStatus boot.pocDevice := by
    rw [requests.pocDevice]
    rfl
  refine ⟨secure.guarded.poll tick, ?_, ?_, ?_, ?_, ?_, ?_, ?_, ?_⟩
  · rw [flash]
    exact secure.done
  · rw [flag, flash]
    exact secure.untouched
  · rw [store]
    exact secure.started
  · rw [store]
    exact secure.ahead
  · rw [store]
    exact secure.front
  · rw [sum]
    exact secure.announced
  · rw [status, sum, switchedStatus]
    split
    · intro other
      cases other
    · exact secure.upgraded
  · rw [status, counter, switchedStatus]
    split
    next finished =>
      intro _
      rw [← secure.announced (secure.upgraded finished.1)]
      exact UInt16.le_iff_toNat_le.mp finished.2
    next => exact secure.met

theorem OrderlyLine.announces {line : List UInt8}
    (orderly : OrderlyLine image boot line) (nonempty : 1 ≤ image.length)
    (downloaded : pocLine line = .downloaded) : announcedSum line ≠ 0 := by
  intro zero
  have sum := orderly.announcing downloaded
  rw [zero] at sum
  exact absurd nonempty (by rw [← sum]; decide)

/-- An orderly line is a careful one. -/
theorem OrderlyLine.careful {line : List UInt8}
    (orderly : OrderlyLine image boot line) (nonempty : 1 ≤ image.length)
    (fits : image.length ≤ 1560)
    (front : boot.packetStore.received <+: image) :
    CarefulLine boot line := by
  refine ⟨orderly.leaving,
    fun downloaded => .inr (orderly.announces nonempty downloaded),
    fun accepts => ?_⟩
  obtain ⟨announced, place⟩ := orderly.storing accepts
  have lengths := front.length_le
  rw [PacketStore.received_length, Boot.packetStore_downPackCnt] at lengths
  refine ⟨announced, place, ?_⟩
  unfold flagPacket
  omega

theorem Secure.receive (secure : Secure image first boot)
    (nonempty : 1 ≤ image.length) (fits : image.length ≤ 1560)
    {line : List UInt8} (orderly : OrderlyLine image boot line) :
    Secure image first (pocUartMsgDeal boot line) := by
  have effect := pocUartMsgDeal_effect boot line
  have store := pocUartMsgDeal_packetStore boot line
  have careful := orderly.careful nonempty fits secure.front
  have below := secure.count_le
  have counter : boot.pocDevice.downPackCnt.toNat ≤
      (pocUartMsgDeal boot line).pocDevice.downPackCnt.toNat := by
    rcases pocStep_downPackCnt boot (.receive line) with same | ⟨more, _⟩
    · exact Nat.le_of_eq same.symm
    · exact Nat.le_trans (Nat.le_succ _) (Nat.le_of_eq more.symm)
  have taken := PacketStore.receive_genuine secure.started secure.ahead fits
    orderly.genuine
  refine ⟨secure.guarded.receive careful, ?_, ?_, ?_, ?_, ?_, ?_, ?_, ?_⟩
  · have flash : (pocUartMsgDeal boot line).flash =
        (boot.packetStore.receive line).flash :=
      congrArg PacketStore.flash store
    rw [flash]
    apply secure.done.trans
    apply receive_done
    intro _
    rw [Boot.packetStore_downPackCnt]
    omega
  · intro flag
    have refuses : ¬boot.packetStore.Accepts line :=
      fun accepts => pocUartMsgDeal_eraseFlag accepts flag
    rw [PacketStore.receive_of_not_accepts refuses] at store
    have same : (pocUartMsgDeal boot line).flash = boot.flash :=
      congrArg PacketStore.flash store
    have before : (pocUartMsgDeal boot line).eraseFlag = boot.eraseFlag :=
      congrArg PacketStore.eraseFlag store
    rw [same]
    exact secure.untouched (before.symm.trans flag)
  · rw [store]
    exact PacketStore.receive_started secure.started
  · rw [store]
    exact secure.ahead.receive line
  · rw [store, taken]
    cases delivered : packetDelivery line with
    | none => exact secure.front
    | some delivery =>
        exact accept_front (orderly.genuine delivery delivered) secure.front
  · rw [effect.packSum, linePackSum]
    split
    next downloaded => exact fun _ => orderly.announcing downloaded
    next => exact secure.announced
  · rw [effect.status, effect.packSum, linePackSum]
    intro upgrade
    split
    next downloaded => exact orderly.announces nonempty downloaded
    next notAnnounced =>
      rcases lineStatus_upgrade upgrade with downloaded | ⟨before, _⟩
      · exact absurd downloaded notAnnounced
      · exact secure.upgraded before
  · rw [effect.status]
    intro success
    exact Nat.le_trans (secure.met (lineStatus_success success).1) counter

end

/-- The area of the application. -/
def SameApp (first second : Mem) : Prop :=
  ∀ target, startAddress ≤ target → target < startAddress + eraseSize →
    first target = second target

/-- Whether the application is good is decided by its area alone. -/
def AppLocal (good : Mem → Prop) : Prop :=
  ∀ first second, SameApp first second → good first → good second

def HoldsImage (image : List (List UInt8)) (mem : Mem) : Prop :=
  ∀ index payload, image[index]? = some payload →
    flashReadForDownload { mem := mem, log := [] } (blockAddr index) 256 =
      payload

theorem holdsImage_of_received {image : List (List UInt8)}
    {store : PacketStore} (received : store.received = image) :
    HoldsImage image store.flash.mem := by
  intro index payload here
  rw [← received] at here
  obtain ⟨inside, entry⟩ := List.getElem?_eq_some_iff.mp here
  rw [PacketStore.received_length] at inside
  rw [PacketStore.received_getElem? inside] at here
  exact Option.some.inj here

theorem sameApp_of_pastApp {mem : Mem} {ops : List Op}
    (within : Within stm32f103ve PastApp ops) :
    SameApp mem (replay stm32f103ve ops mem) := by
  intro target _ below
  apply (within.replay (fun past => ?_)).symm
  unfold PastApp flashAddrReserve at past
  unfold startAddress eraseSize at below
  omega

theorem bootFlag_of_within {region : Nat → Prop} {mem : Mem} {ops : List Op}
    (within : Within stm32f103ve region ops)
    (elsewhere : ∀ place, place < 4 → ¬region (flashAddrBootFlag + place)) :
    bootFlag { mem := replay stm32f103ve ops mem, log := [] } =
      bootFlag { mem := mem, log := [] } :=
  bootFlag_congr fun place bound => within.replay (elsewhere place bound)

theorem flag_notBeforeReserve (place : Nat) (_ : place < 4) :
    ¬BeforeReserve (flashAddrBootFlag + place) := by
  unfold BeforeReserve flashAddrBootFlag
  omega

theorem flag_notInConfig (place : Nat) (bound : place < 4) :
    ¬InConfig (flashAddrBootFlag + place) := by
  unfold InConfig flashAddrUserStart
  omega

/-- The loop of an orderly start: inside it is secure, and where it was left
the application was good. -/
structure Sheltered (image : List (List UInt8)) (good : Mem → Prop)
    (first : Mem) (download : Download) : Prop where
  inside : download.phase ≠ .left → Secure image first download.boot
  outside : download.phase = .left → ∃ flash : Flash,
    Done BeforeReserve { mem := first, log := [] } flash ∧ good flash.mem ∧
      Done PastApp flash download.boot.flash

section

variable {image : List (List UInt8)} {good : Mem → Prop} {first : Mem}
  {download : Download}

/-- The loop is left. -/
theorem Secure.leave {boot after : Boot} (secure : Secure image first boot)
    (runs : ∀ later, HoldsImage image later → good later)
    (sound : boot.pocDevice.status ≠ .verDwonloadSuccess → good first)
    (leaving : Exit boot after) : good boot.flash.mem := by
  have installed (enough : image.length ≤
      boot.pocDevice.downPackCnt.toNat) : good boot.flash.mem :=
    runs _ (holdsImage_of_received (secure.complete enough))
  by_cases success : boot.pocDevice.status = .verDwonloadSuccess
  · exact installed (secure.met success)
  · by_cases untouched : boot.eraseFlag = 0
    · rw [secure.untouched untouched]
      exact sound success
    · have finished : ¬Unfinished boot := fun unfinished =>
        leaving.notUpgrade (secure.guarded.upgrading unfinished)
      have announced := secure.guarded.announced untouched
      apply installed
      rw [← secure.announced announced, ← UInt16.le_iff_toNat_le]
      exact UInt16.not_lt.mp fun missing => finished ⟨untouched, missing⟩

theorem Sheltered.left (sheltered : Sheltered image good first download)
    (runs : ∀ later, HoldsImage image later → good later)
    (before : download.phase ≠ .left) {after : Boot}
    (sound : download.boot.pocDevice.status ≠ .verDwonloadSuccess →
      good first)
    (leaving : Exit download.boot after) :
    Sheltered image good first
      { download with phase := .left, boot := after } := by
  have secure := sheltered.inside before
  refine ⟨fun inside => absurd rfl inside, fun _ => ?_⟩
  exact ⟨_, secure.done, secure.leave runs sound leaving, leaving.done⟩

theorem Sheltered.step (sheltered : Sheltered image good first download)
    (runs : ∀ later, HoldsImage image later → good later)
    (nonempty : 1 ≤ image.length) (fits : image.length ≤ 1560)
    {event : LoopEvent}
    (orderly : OrderlyEvent image (good first) download event) :
    Sheltered image good first (loopStep download event) := by
  have moved {phase : Phase} (before : download.phase ≠ .left)
      (after : phase ≠ .left) :
      Sheltered image good first { download with phase := phase } :=
    ⟨fun _ => sheltered.inside before, fun left => absurd left after⟩
  cases event with
  | poll tick =>
      simp only [loopStep]
      split
      next polling =>
        have secure := sheltered.inside (by simp [polling])
        refine ⟨fun _ => secure.poll tick, fun left => ?_⟩
        cases left
      next => exact sheltered
  | receive line =>
      simp only [loopStep]
      split
      next draining =>
        have before : download.phase ≠ .left := by simp [draining]
        refine ⟨fun _ => (sheltered.inside before).receive nonempty fits
          (orderly draining), fun left => absurd left before⟩
      next => exact sheltered
  | branch =>
      simp only [loopStep]
      split
      next draining =>
        have before : download.phase ≠ .left := by simp [draining]
        split
        next same =>
          exact sheltered.left runs before (fun _ => orderly draining same)
            (.same same)
        next =>
          split
          next success =>
            exact sheltered.left runs before
              (fun other => absurd success other) (.success success)
          next => exact moved before (by decide)
      next => exact sheltered
  | timeout tick =>
      simp only [loopStep]
      split
      next branched =>
        have before : download.phase ≠ .left := by simp [branched]
        split
        next late =>
          exact sheltered.left runs before
            (fun _ => orderly branched late.1 late.2) (.timeout late.1)
        next => exact moved before (by decide)
      next => exact sheltered

/-- Wherever the operations stop, the flag is as it was or the application is
good. -/
theorem Sheltered.cut (sheltered : Sheltered image good first download)
    (appLocal : AppLocal good) {done : List Op}
    (stopped : done <+: download.boot.flash.log) :
    bootFlag { mem := replay stm32f103ve done first, log := [] } =
        bootFlag { mem := first, log := [] } ∨
      good (replay stm32f103ve done first) := by
  by_cases left : download.phase = .left
  · obtain ⟨flash, ⟨earlier, runs, below⟩, sound, ⟨later, ends, past⟩⟩ :=
      sheltered.outside left
    rw [ends, runs, Device.execAll_log, Device.execAll_log,
      List.nil_append] at stopped
    rw [runs, Device.execAll_mem] at sound
    rcases stopped_append stopped with early | ⟨rest, part, rfl⟩
    · exact .inl (bootFlag_of_within (below.subset early.subset)
        flag_notBeforeReserve)
    · right
      rw [replay_append]
      exact appLocal _ _ (sameApp_of_pastApp (past.subset part.subset)) sound
  · obtain ⟨ops, runs, below⟩ := (sheltered.inside left).done
    rw [runs, Device.execAll_log, List.nil_append] at stopped
    exact .inl (bootFlag_of_within (below.subset stopped.subset)
      flag_notBeforeReserve)

end

/-- What is assumed of a start: the server has a good image that fits, the
lines are orderly, and the application leaves its own area alone. -/
structure Orderly (good : Mem → Prop) (mem : Mem) (start : PowerOn) : Prop where
  nonempty : 1 ≤ start.image.length
  fits : start.image.length ≤ 1560
  runs : ∀ later, HoldsImage start.image later → good later
  events : Admitted loopStep (OrderlyEvent start.image (good mem))
    (bootTask mem start.pastCfg) start.events
  application : SameApp mem (start.application mem)

/-- `main` would start no application but a good one. -/
def Startable (good : Mem → Prop) (mem : Mem) : Prop :=
  bootFlag { mem := mem, log := [] } ≠ 0x88888888 → good mem

theorem start_secure {first : Mem} (image : List (List UInt8))
    (deviceCfg : DeviceCfg) (pastCfg : List UInt8)
    (flagged : bootFlag { mem := first, log := [] } = 0x88888888) :
    Secure image first (Boot.start first deviceCfg pastCfg) := by
  have fresh : (Boot.start first deviceCfg pastCfg).pocDevice =
      PocDevice.zero := rfl
  have unerased : (Boot.start first deviceCfg pastCfg).eraseFlag = 0 := rfl
  have nothing : (Boot.start first deviceCfg pastCfg).packetStore.received =
      [] := rfl
  refine ⟨⟨flagged, ?_, fun erased => absurd unerased erased, ?_⟩,
    Done.refl _, fun _ => rfl, start_started _ _ _, start_blankAhead _ _ _,
    ?_, fun announced => absurd (congrArg PocDevice.packSum fresh) announced,
    ?_, ?_⟩
  · rintro ⟨erased, _⟩
    exact absurd unerased erased
  · rintro _ ⟨_, _, member⟩
    cases member
  · rw [nothing]
    exact List.nil_prefix
  · rw [fresh]
    intro other
    cases other
  · rw [fresh]
    intro other
    cases other

theorem Orderly.startable {good : Mem → Prop} {mem : Mem} {start : PowerOn}
    (orderly : Orderly good mem start) (appLocal : AppLocal good)
    (before : Startable good mem) : Startable good (powerOn mem start) := by
  unfold powerOn
  split
  next flagged =>
    intro givenUp
    obtain ⟨init, runs, inConfig⟩ := deviceInit_done { mem := mem, log := [] }
    have initLog : (deviceInit { mem := mem, log := [] }).2.log = init := by
      rw [runs, Device.execAll_log, List.nil_append]
    have flagKept {ops : List Op} (within : Within stm32f103ve InConfig ops) :
        bootFlag { mem := replay stm32f103ve ops mem, log := [] } =
          0x88888888 :=
      (bootFlag_of_within within flag_notInConfig).trans flagged
    have stopped := List.take_prefix start.cut (loaderOps mem start)
    generalize (loaderOps mem start).take start.cut = done
      at givenUp stopped ⊢
    rw [loaderOps, initLog] at stopped
    rcases stopped_append stopped with early | ⟨rest, part, rfl⟩
    · exact absurd (flagKept (inConfig.subset early.subset)) givenUp
    · have firstMem : (deviceInit { mem := mem, log := [] }).2.mem =
          replay stm32f103ve init mem := by
        rw [runs, Device.execAll_mem]
      have same : SameApp mem (replay stm32f103ve init mem) :=
        sameApp_of_pastApp (inConfig.mono fun _ inside =>
          Nat.le_trans reserve_le_userStart inside)
      have events := orderly.events
      rw [bootTask] at part events
      simp only [firstMem] at part events
      rw [replay_append] at givenUp ⊢
      have sheltered := @run_invariant_of_admitted _ _ loopStep
        (Download.start (replay stm32f103ve init mem)
          (deviceConfigRead (deviceInit { mem := mem, log := [] }).2)
          start.pastCfg) start.events
        (OrderlyEvent start.image (good mem))
        (Sheltered start.image good (replay stm32f103ve init mem))
        ⟨fun _ => start_secure _ _ _ (flagKept inConfig),
          fun left => by cases left⟩
        (fun download event reached admits => reached.step orderly.runs
          orderly.nonempty orderly.fits (admits.mono (appLocal _ _ same)))
        events
      rcases sheltered.cut appLocal part with kept | sound
      · exact absurd (kept.trans (flagKept inConfig)) givenUp
      · exact sound
  next notFlagged =>
    exact fun _ => appLocal _ _ orderly.application (before notFlagged)

/-- Over any number of starts, each cut short after any operation on the flash
or not at all: whenever `main` would jump to the application, it is good. -/
theorem application_good_over_starts {good : Mem → Prop}
    (appLocal : AppLocal good) {mem : Mem} (before : Startable good mem)
    {starts : List PowerOn}
    (orderly : Admitted powerOn (Orderly good) mem starts) :
    Startable good (run powerOn mem starts) :=
  @run_invariant_of_admitted _ _ powerOn mem starts (Orderly good)
    (Startable good) before
    (fun _ _ startable orderly => orderly.startable appLocal startable) orderly

/-- The packet has come when the power goes, in the middle of the erasure. -/
def interruptedStart : PowerOn :=
  { image := [zeroPayload]
    pastCfg := []
    events := turn 0 [onePacket, zeroPacket 0]
    cut := 100
    application := id }

theorem holdsImage_appLocal {image : List (List UInt8)}
    (fits : image.length ≤ 1560) : AppLocal (HoldsImage image) := by
  intro first second same holds index payload here
  have inside := (List.getElem?_eq_some_iff.mp here).1
  rw [← holds index payload here]
  apply (eq_iff_byteAt (by simp)).mpr
  intro place bound
  rw [flashReadForDownload_length] at bound
  rw [flashReadForDownload_byteAt _ _ bound,
    flashReadForDownload_byteAt _ _ bound]
  apply (same _ _ _).symm
  · unfold blockAddr
    omega
  · unfold blockAddr eraseSize
    omega

theorem interruptedStart_orderly (mem : Mem) :
    Orderly (HoldsImage [zeroPayload]) mem interruptedStart := by
  refine ⟨by decide, by decide, fun _ holds => holds, ?_, fun _ _ _ => rfl⟩
  have polling : (bootTask mem []).phase = .polling := rfl
  have announced : pocLine onePacket = .downloaded := by decide
  have packet : pocLine (zeroPacket 0) = .packet := packetLine_kind 1 _
  have delivers : packetDelivery (zeroPacket 0) = some (zeroPayload, 1) :=
    packetDelivery_packetLine 1 zeroPayload_length
  have silent : packetDelivery onePacket = none :=
    if_neg fun intact => by cases announced.symm.trans intact.1
  have last : turn 0 [onePacket, zeroPacket 0] =
      turn 0 [onePacket] ++ [.receive (zeroPacket 0)] := rfl
  have reached := run_turnEvents_concat (bootTask mem []).boot 0 [] onePacket
  rw [List.nil_append, pocUartMsgDeal_downloaded _ announced] at reached
  show Admitted loopStep _ (bootTask mem []) (turn 0 [onePacket, zeroPacket 0])
  generalize bootTask mem [] = download at polling reached ⊢
  rw [last, admitted_concat, run_turn 0 [onePacket] polling, reached]
  have first : turn 0 [onePacket] = turn 0 [] ++ [.receive onePacket] := rfl
  refine ⟨?_, fun _ => ⟨?_, ?_, ?_, ?_⟩⟩
  · rw [first, admitted_concat]
    refine ⟨?_, fun _ => ⟨?_, fun _ => by decide, fun accepts => ?_, ?_⟩⟩
    · apply admitted_of_forall
      intro state event member
      rw [List.mem_singleton.mp member]
      trivial
    · rintro (land | version)
      · cases announced.symm.trans land.1
      · cases announced.symm.trans version.1
    · cases announced.symm.trans accepts.1
    · intro delivery delivered
      cases silent.symm.trans delivered
  · rintro (land | version)
    · cases packet.symm.trans land.1
    · cases packet.symm.trans version.1
  · intro other
    cases packet.symm.trans other
  · exact fun _ => ⟨show announcedSum onePacket ≠ 0 by decide, .inl rfl⟩
  · intro delivery delivered
    cases delivers.symm.trans delivered
    exact List.mem_singleton_self _

theorem application_good_over_starts_interrupted :
    Startable (HoldsImage [zeroPayload])
      (run powerOn askingMem [interruptedStart, interruptedStart]) := by
  apply application_good_over_starts (holdsImage_appLocal (by decide))
  · exact fun givenUp => absurd askingMem_bootFlag givenUp
  · intro before start after split
    have member : start ∈ [interruptedStart, interruptedStart] := by
      rw [split]
      exact List.mem_append_right _ List.mem_cons_self
    have same : start = interruptedStart := by
      simpa using member
    rw [same]
    exact interruptedStart_orderly _

end Tp79Boot
