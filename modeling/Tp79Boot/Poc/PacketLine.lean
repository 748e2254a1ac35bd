import Tp79Boot.Poc.PacketStore

/-!
# Packets that pass

The line a server sends for a packet, and the proof that the packet handler
takes it: the fields the handler cuts out of the line are the fields the line
was built from.  Every accepted line of this kind stores its payload wherever
the block is blank, and a payload of zeros is stored whatever the block holds.
-/

namespace Tp79Boot

open NorMemory EventRun

def highByte (halfword : UInt16) : UInt8 := (halfword >>> 8).toUInt8

def lowByte (halfword : UInt16) : UInt8 := halfword.toUInt8

theorem bytes_toNat (halfword : UInt16) :
    256 * (highByte halfword).toNat + (lowByte halfword).toNat =
      halfword.toNat := by
  have below := halfword.toNat_lt
  simp [highByte, lowByte, Nat.shiftRight_eq_div_pow]
  omega

/-- A packet of an update: the number high byte first, the checksum low byte
first, and six characters in between that nobody reads. -/
def packetLine (number : UInt16) (payload : List UInt8) : List UInt8 :=
  ascii "+POC:430300000" ++
    (hexChars [highByte number, lowByte number] ++ (ascii "000000" ++
      (hexChars payload ++
        hexChars [lowByte (calcrc payload 256),
          highByte (calcrc payload 256)])))

theorem strToHex_two (first second : UInt8) (rest : List UInt8) :
    strToHex (hexChars [first, second] ++ rest) 4 = [first, second] :=
  strToHex_hexChars [first, second] rest

/-- The text with any checksum in its field. -/
def packetText (number crc : UInt16) (payload : List UInt8) : List UInt8 :=
  ascii "+POC:430300000" ++
    (hexChars [highByte number, lowByte number] ++ (ascii "000000" ++
      (hexChars payload ++ hexChars [lowByte crc, highByte crc])))

section

variable (number crc : UInt16) {payload : List UInt8}
  (whole : payload.length = 256)

theorem packetText_kind (payload : List UInt8) :
    pocLine (packetText number crc payload) = .packet := by
  have compares (literal : List UInt8) (count : Nat) (inside : count ≤ 14) :
      memcmpEq (packetText number crc payload) 0 literal count ↔
        memcmpEq (ascii "+POC:430300000") 0 literal count :=
    memcmpEq_front _ literal inside
  have literalKind : pocLine (ascii "+POC:430300000") = .packet := by decide
  unfold pocLine at literalKind ⊢
  simp only [compares _ 2 (by decide), compares _ 7 (by decide),
    compares _ 9 (by decide)]
  exact literalKind

theorem packetText_number (payload : List UInt8) :
    packetNumber (packetText number crc payload) = number := by
  apply UInt16.toNat_inj.mp
  rw [packetNumber, packetText, List.drop_left' (by decide), strToHex_two,
    swapBytes_halfwordOfBytes, bytes_toNat]

include whole

theorem packetText_data :
    packetData (packetText number crc payload) = payload := by
  have head : packetText number crc payload =
      (ascii "+POC:430300000" ++ hexChars [highByte number, lowByte number] ++
        ascii "000000") ++ (hexChars payload ++
          hexChars [lowByte crc, highByte crc]) := by
    simp only [packetText, List.append_assoc]
  have position : (ascii "+POC:430300000" ++
      hexChars [highByte number, lowByte number] ++
        ascii "000000").length = 24 := by
    simp only [List.length_append, hexChars_length]
    rfl
  have characters : 512 = 2 * payload.length := by omega
  rw [packetData, head, List.drop_left' position, characters,
    strToHex_hexChars]

theorem packetText_crc : packetCrc (packetText number crc payload) = crc := by
  have head : packetText number crc payload =
      (ascii "+POC:430300000" ++ hexChars [highByte number, lowByte number] ++
        ascii "000000" ++ hexChars payload) ++
          (hexChars [lowByte crc, highByte crc] ++ []) := by
    simp only [packetText, List.append_assoc, List.append_nil]
  have position : (ascii "+POC:430300000" ++
      hexChars [highByte number, lowByte number] ++ ascii "000000" ++
        hexChars payload).length = 536 := by
    simp only [List.length_append, hexChars_length, whole]
    rfl
  have value := bytes_toNat crc
  apply UInt16.toNat_inj.mp
  rw [packetCrc, head, List.drop_left' position, strToHex_two,
    halfwordOfBytes_toNat]
  omega

end

section

variable (number : UInt16) {payload : List UInt8}
  (whole : payload.length = 256)

theorem packetLine_kind (payload : List UInt8) :
    pocLine (packetLine number payload) = .packet :=
  packetText_kind number _ payload

/-- There is nothing in the line but its two literals and printed digits. -/
theorem forall_mem_packetLine (payload : List UInt8) {Good : UInt8 → Prop}
    (digits : ∀ bytes, ∀ byte ∈ hexChars bytes, Good byte)
    (header : ∀ byte ∈ ascii "+POC:430300000", Good byte)
    (filler : ∀ byte ∈ ascii "000000", Good byte) :
    ∀ byte ∈ packetLine number payload, Good byte := by
  unfold packetLine
  intro byte member
  simp only [List.mem_append] at member
  rcases member with first | second | third | fourth | fifth
  · exact header byte first
  · exact digits _ byte second
  · exact filler byte third
  · exact digits _ byte fourth
  · exact digits _ byte fifth

theorem packetLine_number (payload : List UInt8) :
    packetNumber (packetLine number payload) = number :=
  packetText_number number _ payload

include whole

theorem packetLine_data :
    packetData (packetLine number payload) = payload :=
  packetText_data number _ whole

theorem packetLine_crc :
    packetCrc (packetLine number payload) = calcrc payload 256 :=
  packetText_crc number _ whole

theorem packetLine_strlen : strlen (packetLine number payload) = 540 := by
  have nonzero : ∀ byte ∈ packetLine number payload, byte ≠ 0 :=
    forall_mem_packetLine number payload
      (fun _ _ member => (hexChars_printable member).1)
      (nonzero_of_all (by decide)) (nonzero_of_all (by decide))
  have literalLength : (ascii "+POC:430300000").length = 14 := rfl
  have fillerLength : (ascii "000000").length = 6 := rfl
  have length : (packetLine number payload).length = 540 := by
    simp only [packetLine, List.length_append, hexChars_length, whole,
      literalLength, fillerLength, List.length_cons, List.length_nil]
  exact (strlen_of_nonzero nonzero).trans length

theorem packetLine_accepted {store : PacketStore}
    (expected : number.toNat = store.downPackCnt.toNat + 1) :
    store.Accepts (packetLine number payload) := by
  refine ⟨packetLine_kind number payload, ?_, ?_, ?_⟩
  · rw [packetLine_strlen number whole]
  · rw [packetLine_crc number whole, packetLine_data number whole]
  · rw [packetLine_number, expected]

end

def zeroPayload : List UInt8 := List.replicate 256 0

theorem zeroPayload_length : zeroPayload.length = 256 :=
  List.length_replicate

def zeroPacket (index : Nat) : List UInt8 :=
  packetLine (UInt16.ofNat (index + 1)) zeroPayload

theorem zeroPacket_accepted {store : PacketStore} {index : Nat}
    (counted : store.downPackCnt.toNat = index) (small : index + 1 < 65536) :
    store.Accepts (zeroPacket index) := by
  have number : (UInt16.ofNat (index + 1)).toNat =
      store.downPackCnt.toNat + 1 := by
    rw [UInt16.toNat_ofNat', Nat.mod_eq_of_lt small, counted]
  exact packetLine_accepted _ zeroPayload_length number

/-- Programming zeros always succeeds inside the flash. -/
theorem zeroPacket_verified {store : PacketStore} {index : Nat}
    (inFlash : store.nextBlock + 256 ≤ 0x08080000) :
    store.Verified (zeroPacket index) := by
  have data : packetData (zeroPacket index) = zeroPayload :=
    packetLine_data _ zeroPayload_length
  rw [PacketStore.Verified, memcmpEq, bytesAt_eq_iff]
  intro place bound
  have flashAddress : stm32f103ve.Contains (store.nextBlock + place) := by
    unfold NorMemory.Geometry.Contains
    simp only [stm32f103ve]
    unfold PacketStore.nextBlock blockAddr startAddress at *
    omega
  rw [Nat.zero_add, flashReadForDownload_byteAt _ _ bound,
    PacketStore.written_mem,
    if_pos ⟨flashAddress, by omega, by omega⟩, data, zeroPayload,
    byteAt_replicate_zero, byteAt_replicate_zero, UInt8.and_zero]

/-- Packets `1, 2, .., count` with nothing but zeros in them. -/
def zeroPackets (count : Nat) : List PocEvent :=
  (List.range count).map fun index => .receive (zeroPacket index)

theorem zeroPackets_counted (boot : Boot)
    (fresh : boot.pocDevice.downPackCnt = 0) {count : Nat}
    (inFlash : blockAddr count ≤ 0x08080000) :
    (run pocStep boot (zeroPackets count)).pocDevice.downPackCnt.toNat =
      count := by
  induction count with
  | zero =>
      rw [zeroPackets, List.range_zero, List.map_nil, run_nil, fresh]
      rfl
  | succ count induction =>
      have next : blockAddr count + 256 = blockAddr (count + 1) := by
        unfold blockAddr
        omega
      have counted := induction (by omega)
      have events : zeroPackets (count + 1) =
          zeroPackets count ++ [.receive (zeroPacket count)] := by
        simp [zeroPackets, List.range_succ]
      rw [events, run_concat]
      generalize run pocStep boot (zeroPackets count) = reached at counted ⊢
      have sameCount : reached.packetStore.downPackCnt.toNat = count := counted
      have store := pocStep_packetStore reached (.receive (zeroPacket count))
      have accepted : reached.packetStore.Accepts (zeroPacket count) := by
        apply zeroPacket_accepted sameCount
        unfold blockAddr startAddress at inFlash
        omega
      have verified : reached.packetStore.Verified (zeroPacket count) := by
        apply zeroPacket_verified
        rw [PacketStore.nextBlock, sameCount, next]
        exact inFlash
      have counter := congrArg (fun store : PacketStore =>
        store.downPackCnt.toNat) store
      rw [PacketStore.step, PacketStore.receive_downPackCnt,
        if_pos ⟨accepted, verified⟩, sameCount] at counter
      exact counter

end Tp79Boot
