import Tp79Boot.Poc.Malformed

/-!
# Requests and their answers

`poc_task` asks for the next packet by its number, and the handler takes the
answer that repeats the digits of the request.  In every state that a run can
reach the area from the next block on is blank, so the payload of an answer is
stored as it is and the packet is counted.
-/

namespace Tp79Boot

open NorMemory EventRun

/-- A line that answers a request: it repeats the four digits, and carries the
payload and its checksum, low byte first. -/
structure Answers (request payload ptr : List UInt8) : Prop where
  name : memcmpEq ptr 0 (ascii "+POC:4303") 9
  long : 540 ≤ strlen ptr
  number : bytesAt ptr 14 4 = bytesAt request 15 4
  data : bytesAt ptr 24 512 = bytesAt (hexToStr payload 256) 0 512
  crc : bytesAt ptr 536 4 =
    hexChars [lowByte (calcrc payload 256), highByte (calcrc payload 256)]

/-- The switch asks for the packet after those that are counted, or for
nothing. -/
theorem pocTaskSwitch_asks {tick : UInt32} {boot : Boot}
    (upgrade : boot.pocDevice.status = .verUpgrade)
    (unfinished : boot.pocDevice.downPackCnt < boot.pocDevice.packSum) :
    (pocTaskSwitch tick boot).sent = boot.sent ∨
      (pocTaskSwitch tick boot).sent =
        boot.sent ++ [packetCmd (boot.pocDevice.downPackCnt + 1)] := by
  have held := heldTimer_onlyRequests tick boot
  have sameSent : (heldTimer tick boot).sent = boot.sent := by
    unfold heldTimer
    split
    · rfl
    · rfl
  unfold pocTaskSwitch
  generalize heldTimer tick boot = next at held sameSent ⊢
  simp only [held.pocDevice, upgrade, if_pos unfinished]
  split
  · exact .inr (by rw [Boot.uart2SendString_sent, sameSent])
  · exact .inl sameSent

theorem asked_packetCmd {tick : UInt32} {boot : Boot} {request : List UInt8}
    (upgrade : boot.pocDevice.status = .verUpgrade)
    (unfinished : boot.pocDevice.downPackCnt < boot.pocDevice.packSum)
    (asks : (pocTaskSwitch tick boot).sent = boot.sent ++ [request]) :
    request = packetCmd (boot.pocDevice.downPackCnt + 1) := by
  rcases @pocTaskSwitch_asks tick boot upgrade unfinished with quiet | sent
  · have nothing : boot.sent = boot.sent ++ [request] := quiet.symm.trans asks
    exact absurd (List.self_eq_append_right.mp nothing) (List.cons_ne_nil _ _)
  · have same := asks.symm.trans sent
    exact List.singleton_inj.mp (List.append_cancel_left same)

theorem packetCmd_digits (packCnt : UInt16) :
    bytesAt (packetCmd packCnt) 15 4 =
      hexChars [highByte packCnt, lowByte packCnt] := by
  have printed : bytesAt (packetCmd packCnt) 15 4 =
      hexChars [((packCnt >>> 8) &&& (0x00FF : UInt16)).toUInt8,
        (packCnt &&& (0x00FF : UInt16)).toUInt8] := rfl
  have mask (value : Nat) : value % 256 &&& 255 = value % 256 := by
    rw [Nat.and_two_pow_sub_one_eq_mod _ 8]
    exact Nat.mod_mod value 256
  have high : ((packCnt >>> 8) &&& (0x00FF : UInt16)).toUInt8 =
      highByte packCnt := by
    apply UInt8.toNat_inj.mp
    simp [highByte, mask]
  have low : (packCnt &&& (0x00FF : UInt16)).toUInt8 = lowByte packCnt := by
    apply UInt8.toNat_inj.mp
    simp [lowByte, mask]
  rw [printed, high, low]

theorem bytesAt_middle (front text rest : List UInt8) :
    bytesAt (front ++ (text ++ rest)) front.length text.length = text := by
  rw [bytesAt_eq_take (by simp), List.drop_left, List.take_left]

theorem bytesAt_whole (bytes : List UInt8) :
    bytesAt bytes 0 bytes.length = bytes := by
  have middle := bytesAt_middle [] bytes []
  rwa [List.append_nil] at middle

theorem bytesAt_hexToStr {payload : List UInt8}
    (whole : payload.length = 256) :
    bytesAt (hexToStr payload 256) 0 512 = hexChars payload := by
  have bytes := bytesAt_whole payload
  have front := bytesAt_middle [] (hexChars payload) [0]
  rw [whole] at bytes
  rw [hexChars_length, whole] at front
  rw [hexToStr, bytes]
  exact front

theorem strToHex_congr {first second : List UInt8} {count : Nat}
    (same : bytesAt first 0 (2 * count) = bytesAt second 0 (2 * count)) :
    strToHex first (2 * count) = strToHex second (2 * count) := by
  have character := bytesAt_eq_iff.mp same
  apply List.map_congr_left
  intro index member
  have inside := List.mem_range.mp member
  have high := character (2 * index) (by omega)
  have low := character (2 * index + 1) (by omega)
  rw [Nat.zero_add] at high low
  rw [high, low]

theorem strToHex_field {ptr bytes : List UInt8} {offset : Nat}
    (printed : bytesAt ptr offset (2 * bytes.length) = hexChars bytes) :
    strToHex (ptr.drop offset) (2 * bytes.length) = bytes := by
  have whole := bytesAt_whole (hexChars bytes)
  rw [hexChars_length] at whole
  have read := strToHex_hexChars bytes []
  rw [List.append_nil] at read
  refine (strToHex_congr ?_).trans read
  rw [bytesAt_drop, Nat.add_zero, printed, whole]

section

variable {packCnt : UInt16} {payload ptr : List UInt8}
  (answers : Answers (packetCmd packCnt) payload ptr)

include answers

theorem Answers.packetNumber : packetNumber ptr = packCnt := by
  have digits := answers.number.trans (packetCmd_digits packCnt)
  have field := @strToHex_field ptr [highByte packCnt, lowByte packCnt] 14
    digits
  apply UInt16.toNat_inj.mp
  rw [Tp79Boot.packetNumber]
  exact (congrArg (fun bytes => (swapBytes (halfwordOfBytes bytes)).toNat)
    field).trans ((swapBytes_halfwordOfBytes _ _).trans (bytes_toNat packCnt))

theorem Answers.packetData (whole : payload.length = 256) :
    packetData ptr = payload := by
  have characters : 512 = 2 * payload.length := by omega
  have data := answers.data.trans (bytesAt_hexToStr whole)
  rw [characters] at data
  rw [Tp79Boot.packetData, characters]
  exact strToHex_field data

theorem Answers.packetCrc :
    packetCrc ptr = calcrc payload 256 := by
  have field := @strToHex_field ptr
    [lowByte (calcrc payload 256), highByte (calcrc payload 256)] 536
    answers.crc
  have value := bytes_toNat (calcrc payload 256)
  apply UInt16.toNat_inj.mp
  rw [Tp79Boot.packetCrc]
  refine (congrArg (fun bytes => (halfwordOfBytes bytes).toNat)
    field).trans ((halfwordOfBytes_toNat _ _).trans ?_)
  omega

end

theorem Answers.accepted {packCnt : UInt16} {payload ptr : List UInt8}
    (answers : Answers (packetCmd packCnt) payload ptr)
    (whole : payload.length = 256) {store : PacketStore}
    (expected : packCnt.toNat = store.downPackCnt.toNat + 1) :
    store.Accepts ptr := by
  have kind : pocLine (ascii "+POC:4303") = .packet := by decide
  refine ⟨(pocLine_of_begins answers.name).trans kind, answers.long, ?_, ?_⟩
  · rw [answers.packetCrc, answers.packetData whole]
  · rw [answers.packetNumber]
    exact expected

namespace PacketStore

/-- Once the application is erased, everything from the next block to the end
of its area is blank. -/
def BlankAhead (store : PacketStore) : Prop :=
  store.eraseFlag ≠ 0 → ∀ target, store.nextBlock ≤ target →
    target < startAddress + eraseSize → store.flash.mem target = 0xFF

variable {store : PacketStore} {ptr : List UInt8}

/-- The flash that a packet is written to. -/
theorem BlankAhead.prepared (ahead : store.BlankAhead) {target : Nat}
    (above : store.nextBlock ≤ target)
    (below : target < startAddress + eraseSize) :
    store.prepared.mem target = 0xFF := by
  unfold PacketStore.prepared
  by_cases down : store.eraseFlag = 0
  · have inside : stm32f103ve.Contains target ∧ startAddress ≤ target ∧
        target < startAddress + eraseSize := by
      have start : startAddress ≤ target :=
        Nat.le_trans (Nat.le_add_left _ _) above
      refine ⟨?_, start, below⟩
      unfold Geometry.Contains startAddress eraseSize at *
      simp only [stm32f103ve]
      omega
    rw [if_pos down, eraseApp_mem, if_pos inside]
  · rw [if_neg down]
    exact ahead down target above below

/-- A packet for a blank block is read back as it was sent. -/
theorem BlankAhead.verified (ahead : store.BlankAhead)
    (inArea : store.nextBlock + 256 ≤ startAddress + eraseSize) :
    store.Verified ptr := by
  rw [Verified, memcmpEq, bytesAt_eq_iff]
  intro place bound
  have flashAddress : stm32f103ve.Contains (store.nextBlock + place) := by
    unfold Geometry.Contains
    simp only [stm32f103ve]
    unfold nextBlock blockAddr startAddress eraseSize at *
    omega
  have blank := ahead.prepared (Nat.le_add_right store.nextBlock place)
    (by omega)
  rw [Nat.zero_add, flashReadForDownload_byteAt _ _ bound, written_mem,
    if_pos ⟨flashAddress, by omega, by omega⟩, and_of_blank blank,
    Nat.add_sub_cancel_left]

theorem BlankAhead.verified_of_lt (ahead : store.BlankAhead)
    (inArea : store.downPackCnt.toNat < 1560) : store.Verified ptr := by
  apply ahead.verified
  have area : eraseSize = 1560 * 256 := rfl
  have here : store.nextBlock =
      store.downPackCnt.toNat * 256 + startAddress := rfl
  omega

/-- A packet is stored in the next block, and the counter moves on: what is
ahead of it stays blank. -/
theorem BlankAhead.accept (ahead : store.BlankAhead)
    (accepts : store.Accepts ptr) : (store.accept ptr).BlankAhead := by
  intro _ target above below
  have area : eraseSize = 1560 * 256 := rfl
  have here : store.nextBlock =
      store.downPackCnt.toNat * 256 + startAddress := rfl
  have next : (store.accept ptr).nextBlock =
      (store.accept ptr).downPackCnt.toNat * 256 + startAddress := rfl
  have count := accept_downPackCnt accepts
  have further : store.downPackCnt.toNat ≤
      (store.accept ptr).downPackCnt.toNat := by
    by_cases verified : store.Verified ptr
    · rw [count, if_pos verified]
      exact Nat.le_succ _
    · rw [count, if_neg verified]
  have kept : store.nextBlock ≤ target := by omega
  have outside : ¬(stm32f103ve.Contains target ∧ store.nextBlock ≤ target ∧
      target < store.nextBlock + 256) := by
    rintro ⟨_, _, written⟩
    have inArea : store.nextBlock + 256 ≤ startAddress + eraseSize := by omega
    rw [if_pos (ahead.verified inArea)] at count
    omega
  have unwritten := written_mem store ptr target
  rw [if_neg outside, ahead.prepared kept below] at unwritten
  exact unwritten

theorem BlankAhead.receive (ahead : store.BlankAhead) (ptr : List UInt8) :
    (store.receive ptr).BlankAhead := by
  by_cases accepts : store.Accepts ptr
  · rw [receive_of_accepts accepts]
    exact ahead.accept accepts
  · rw [receive_of_not_accepts accepts]
    exact ahead

end PacketStore

theorem start_blankAhead (mem : Mem) (deviceCfg : DeviceCfg)
    (pastCfg : List UInt8) :
    (Boot.start mem deviceCfg pastCfg).packetStore.BlankAhead :=
  fun raised => absurd rfl raised

theorem pocStep_blankAhead {boot : Boot}
    (ahead : boot.packetStore.BlankAhead) (event : PocEvent) :
    (pocStep boot event).packetStore.BlankAhead := by
  rw [pocStep_packetStore]
  cases event with
  | receive ptr => exact ahead.receive ptr
  | poll tick => exact ahead

theorem pocRun_blankAhead {start : Boot}
    (ahead : start.packetStore.BlankAhead) (events : List PocEvent) :
    (run pocStep start events).packetStore.BlankAhead :=
  @run_invariant _ _ pocStep start (fun boot => boot.packetStore.BlankAhead)
    ahead (fun _ event reached => pocStep_blankAhead reached event) events

/-- The answer to the request for the next packet, when the area ahead is
blank. -/
theorem Answers.counted {number : UInt16} {payload ptr : List UInt8}
    (answers : Answers (packetCmd number) payload ptr)
    (whole : payload.length = 256) {store : PacketStore}
    (ahead : store.BlankAhead) (inArea : store.downPackCnt.toNat < 1560)
    (expected : number.toNat = store.downPackCnt.toNat + 1) :
    (store.receive ptr).downPackCnt.toNat = store.downPackCnt.toNat + 1 ∧
      flashReadForDownload (store.receive ptr).flash
        (blockAddr store.downPackCnt.toNat) 256 = payload := by
  have accepts : store.Accepts ptr := answers.accepted whole expected
  have verified : store.Verified ptr := ahead.verified_of_lt inArea
  rw [PacketStore.receive_of_accepts accepts]
  constructor
  · rw [PacketStore.accept_downPackCnt accepts, if_pos verified]
  · rw [← answers.packetData whole]
    exact PacketStore.accept_block verified

/-- In any state that a run can reach, and as long as the packet asked for is
the next one, its answer is accepted: the packet is counted and its payload is
in its block. -/
theorem request_answered (mem : Mem) (deviceCfg : DeviceCfg)
    (pastCfg : List UInt8) (events later : List PocEvent) (tick : UInt32)
    {boot waiting : Boot}
    (reached : boot = run pocStep (Boot.start mem deviceCfg pastCfg) events)
    (upgrade : boot.pocDevice.status = .verUpgrade)
    (unfinished : boot.pocDevice.downPackCnt < boot.pocDevice.packSum)
    (inArea : boot.pocDevice.downPackCnt.toNat < 1560)
    {request payload ptr : List UInt8}
    (asks : (pocTaskSwitch tick boot).sent = boot.sent ++ [request])
    (afterwards : waiting = run pocStep (pocTaskSwitch tick boot) later)
    (same : waiting.pocDevice.downPackCnt = boot.pocDevice.downPackCnt)
    (whole : payload.length = 256) (answers : Answers request payload ptr) :
    (pocUartMsgDeal waiting ptr).pocDevice.downPackCnt.toNat =
        boot.pocDevice.downPackCnt.toNat + 1 ∧
      flashReadForDownload (pocUartMsgDeal waiting ptr).flash
        (startAddress + 256 * boot.pocDevice.downPackCnt.toNat) 256 =
          payload := by
  have run : waiting = run pocStep (Boot.start mem deviceCfg pastCfg)
      (events ++ .poll tick :: later) := by
    rw [afterwards, reached, run_append, run_cons]
    rfl
  have ahead : waiting.packetStore.BlankAhead := by
    rw [run]
    exact pocRun_blankAhead (start_blankAhead mem deviceCfg pastCfg) _
  have number : (boot.pocDevice.downPackCnt + 1).toNat =
      boot.pocDevice.downPackCnt.toNat + 1 := by
    have one : (1 : UInt16).toNat = 1 := rfl
    rw [UInt16.toNat_add, one]
    exact Nat.mod_eq_of_lt (by omega)
  have counter : waiting.packetStore.downPackCnt.toNat =
      boot.pocDevice.downPackCnt.toNat := congrArg UInt16.toNat same
  rw [asked_packetCmd upgrade unfinished asks] at answers
  rw [← counter] at inArea number
  have counted := answers.counted whole ahead inArea number
  have address : startAddress + 256 * boot.pocDevice.downPackCnt.toNat =
      blockAddr waiting.packetStore.downPackCnt.toNat := by
    rw [counter, blockAddr, Nat.mul_comm, Nat.add_comm]
  rw [← pocUartMsgDeal_packetStore] at counted
  rw [address, ← counter]
  exact counted

theorem packetLine_answers (number : UInt16) {payload : List UInt8}
    (whole : payload.length = 256) :
    Answers (packetCmd number) payload (packetLine number payload) := by
  have literal : (ascii "+POC:430300000").length = 14 := rfl
  have filler : (ascii "000000").length = 6 := rfl
  have name : memcmpEq (ascii "+POC:430300000") 0 (ascii "+POC:4303") 9 := by
    decide
  refine ⟨(memcmpEq_front _ _ (by decide)).mpr name,
    Nat.le_of_eq (packetLine_strlen number whole).symm, ?_, ?_, ?_⟩
  · rw [packetCmd_digits]
    exact bytesAt_middle (ascii "+POC:430300000") _ _
  · have field := bytesAt_middle (ascii "+POC:430300000" ++
      (hexChars [highByte number, lowByte number] ++ ascii "000000"))
      (hexChars payload) (hexChars [lowByte (calcrc payload 256),
        highByte (calcrc payload 256)])
    rw [bytesAt_hexToStr whole]
    simpa [packetLine, whole, literal, filler] using field
  · have field := bytesAt_middle (ascii "+POC:430300000" ++
      (hexChars [highByte number, lowByte number] ++ (ascii "000000" ++
        hexChars payload))) (hexChars [lowByte (calcrc payload 256),
          highByte (calcrc payload 256)]) []
    simpa [packetLine, whole, literal, filler] using field

/-- After the announcement of a single packet. -/
def onePacketBoot : Boot :=
  run pocStep (Boot.start (fun _ => 0xFF) installedCfg [])
    [.receive (ascii "+POC:43020001")]

/-- The only packet is asked for, answered and counted. -/
theorem request_answered_first :
    (pocUartMsgDeal (pocTaskSwitch 3000 onePacketBoot)
        (packetLine 1 zeroPayload)).pocDevice.downPackCnt.toNat =
      onePacketBoot.pocDevice.downPackCnt.toNat + 1 := by
  have counted := @request_answered (fun _ => 0xFF) installedCfg []
    [.receive (ascii "+POC:43020001")] [] 3000 onePacketBoot
    (pocTaskSwitch 3000 onePacketBoot) rfl (by decide) (by decide)
    (by decide) (packetCmd 1) zeroPayload (packetLine 1 zeroPayload)
    (by decide) rfl (by decide) zeroPayload_length
    (packetLine_answers 1 zeroPayload_length)
  exact counted.1

end Tp79Boot
