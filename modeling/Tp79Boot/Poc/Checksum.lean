import Tp79Boot.Lib.ShiftRegister
import Tp79Boot.Poc.PacketRequest

/-!
# The checksum as a remainder

`calcrc` is a register of 16 bits with the taps of `0x1021`, so it leaves the
remainder of the message by `X ^ 16 + X ^ 12 + X ^ 5 + 1`.  Whether a plain
`char` is signed makes no difference, and two payloads that differ in a window
of 16 bits never have the same checksum.
-/

namespace Tp79Boot

open Polynomial ShiftRegister

/-- `(int) *ptr`. -/
def charToInt (charSigned : Bool) (byte : UInt8) : BitVec 32 :=
  if charSigned then byte.toBitVec.signExtend 32
  else byte.toBitVec.setWidth 32

/-- `crc ^ (int) *ptr << 8`, stored in 16 bits. -/
def calcrcChar (charSigned : Bool) (crc : UInt16) (byte : UInt8) : UInt16 :=
  UInt16.ofBitVec ((crc.toBitVec.setWidth 32 ^^^
    (charToInt charSigned byte <<< 8)).setWidth 16)

/-- `calcrc` of a compiler whose plain `char` is signed or not. -/
def calcrcOfChar (charSigned : Bool) (ptr : List UInt8) (count : Nat) :
    UInt16 :=
  (bytesAt ptr 0 count).foldl (fun crc byte =>
    calcrcBit^[8] (calcrcChar charSigned crc byte)) 0

theorem charToInt_low (charSigned : Bool) (byte : UInt8) {place : Nat}
    (low : place < 8) :
    (charToInt charSigned byte).getLsbD place = byte.toBitVec.getLsbD place := by
  have inInt : place < 32 := Nat.lt_trans low (by decide)
  cases charSigned with
  | false =>
    simp only [charToInt, Bool.false_eq_true, if_false, BitVec.getLsbD_setWidth,
      inInt, decide_true, Bool.true_and]
  | true =>
    simp only [charToInt, if_true, BitVec.getLsbD_signExtend, inInt, low,
      decide_true, Bool.true_and]

theorem calcrcChar_eq (charSigned : Bool) (crc : UInt16) (byte : UInt8) :
    calcrcChar charSigned crc byte = crc ^^^ byte.toUInt16 <<< 8 := by
  apply UInt16.toBitVec_inj.mp
  have shifted : (byte.toUInt16 <<< 8).toBitVec =
      byte.toBitVec.setWidth 16 <<< 8 := by
    simp
  rw [UInt16.toBitVec_xor, shifted]
  apply BitVec.eq_of_getLsbD_eq
  intro place bound
  have low := @charToInt_low charSigned byte (place - 8) (by omega)
  have inInt : place < 32 := by omega
  have inWord : place - 8 < 16 := by omega
  simp only [calcrcChar, BitVec.getLsbD_setWidth, BitVec.getLsbD_xor,
    BitVec.getLsbD_shiftLeft, low, bound, inInt, inWord, decide_true,
    Bool.true_and]

theorem calcrcOfChar_eq (charSigned : Bool) (ptr : List UInt8) (count : Nat) :
    calcrcOfChar charSigned ptr count = calcrc ptr count := by
  simp only [calcrcOfChar, calcrcChar_eq]
  rfl

theorem calcrcBit_toBitVec (crc : UInt16) :
    (calcrcBit crc).toBitVec = shiftBit 0x1021#16 crc.toBitVec := by
  have top : crc &&& 0x8000 ≠ 0 ↔ crc.toBitVec.msb = true := by
    rw [Ne, ← UInt16.toBitVec_inj, UInt16.toBitVec_and,
      BitVec.msb_eq_getLsbD_last]
    have bit := BitVec.and_twoPow crc.toBitVec 15
    have literal : (0x8000 : UInt16).toBitVec = BitVec.twoPow 16 15 := rfl
    have zero : (0 : UInt16).toBitVec = 0#16 := rfl
    rw [literal, zero, bit]
    cases set : crc.toBitVec.getLsbD 15 with
    | true => simp
    | false => simp
  unfold calcrcBit shiftBit
  by_cases set : crc.toBitVec.msb = true
  · rw [if_pos (top.mpr set), if_pos set]
    simp
  · rw [if_neg (top.not.mpr set), if_neg set]
    simp

theorem calcrcByte_toBitVec (crc : UInt16) (byte : UInt8) :
    (calcrcByte crc byte).toBitVec =
      (shiftBit 0x1021#16)^[8]
        (crc.toBitVec ^^^ byte.toBitVec.setWidth 16 <<< 8) := by
  have turn : Function.Semiconj UInt16.toBitVec calcrcBit
      (shiftBit 0x1021#16) := calcrcBit_toBitVec
  have shifted : (byte.toUInt16 <<< 8).toBitVec =
      byte.toBitVec.setWidth 16 <<< 8 := by
    simp
  rw [calcrcByte, turn.iterate_right 8, UInt16.toBitVec_xor, shifted]

theorem generator_taps :
    generator 0x1021#16 = (X ^ 16 + X ^ 12 + X ^ 5 + 1 : (ZMod 2)[X]) := by
  have taps : ofVec 0x1021#16 = (X ^ 12 + X ^ 5 + 1 : (ZMod 2)[X]) := by
    simp [ofVec, Finset.sum_range_succ, bitValue]
    ring
  rw [generator, taps]
  ring

theorem calcrcByte_remainder (crc : UInt16) (byte : UInt8) :
    ofVec (calcrcByte crc byte).toBitVec =
      (X ^ 8 * (ofVec crc.toBitVec + X ^ 8 * ofVec byte.toBitVec)) %ₘ
        generator 0x1021#16 := by
  rw [calcrcByte_toBitVec, ofVec_shiftBits (by decide), ofVec_xor,
    ofVec_shifted (by decide)]

/-- The bits of the bytes, most significant bit first. -/
def messageBits (bytes : List UInt8) : List Bool :=
  bytes.flatMap fun byte => bitsOf byte.toBitVec

theorem messageBits_concat (bytes : List UInt8) (byte : UInt8) :
    ofBits (messageBits (bytes ++ [byte])) =
      ofBits (messageBits bytes) * X ^ 8 + ofVec byte.toBitVec := by
  have eight : (bitsOf byte.toBitVec).length = 8 := by simp [bitsOf]
  rw [messageBits, List.flatMap_append, List.flatMap_singleton, ofBits_append,
    ofBits_bitsOf, eight]
  rfl

theorem foldl_calcrcByte_remainder (bytes : List UInt8) :
    ofVec (bytes.foldl calcrcByte 0).toBitVec =
      (ofBits (messageBits bytes) * X ^ 16) %ₘ generator 0x1021#16 := by
  have monic := generator_monic 0x1021#16
  induction bytes using List.reverseRecOn with
  | nil => simp [messageBits, ofBits, ofVec, bitValue]
  | append_singleton bytes byte induction =>
      have product : ofBits (messageBits (bytes ++ [byte])) * X ^ 16 =
          X ^ 8 * (ofBits (messageBits bytes) * X ^ 16) +
            X ^ 8 * (X ^ 8 * ofVec byte.toBitVec) := by
        rw [messageBits_concat]
        ring
      rw [List.foldl_append, List.foldl_cons, List.foldl_nil,
        calcrcByte_remainder, induction, product, mul_add, add_modByMonic,
        mul_remainder monic, ← add_modByMonic]

theorem calcrc_remainder (bytes : List UInt8) :
    ofVec (calcrc bytes bytes.length).toBitVec =
      (ofBits (messageBits bytes) * X ^ 16) %ₘ generator 0x1021#16 := by
  rw [calcrc, bytesAt_whole]
  exact foldl_calcrcByte_remainder bytes

/-- `calcrc` divides: with either sign of a plain `char`, what it returns for
a message of any length is the remainder of the message times `X ^ 16`. -/
theorem calcrc_is_remainder (charSigned : Bool) (bytes : List UInt8) :
    ofVec (calcrcOfChar charSigned bytes bytes.length).toBitVec =
      (ofBits (messageBits bytes) * X ^ 16) %ₘ
        (X ^ 16 + X ^ 12 + X ^ 5 + 1) := by
  rw [calcrcOfChar_eq, calcrc_remainder, generator_taps]

/-- The messages differ only in bits of some window of 16 consecutive bits. -/
def Burst (first second : List UInt8) : Prop :=
  ∃ start, ∀ place,
    (messageBits first).getD place false ≠
        (messageBits second).getD place false →
      start ≤ place ∧ place < start + 16

theorem messageBits_length (bytes : List UInt8) :
    (messageBits bytes).length = 8 * bytes.length := by
  have eight (byte : UInt8) : (bitsOf byte.toBitVec).length = 8 := by
    simp [bitsOf]
  simp only [messageBits, List.length_flatMap, eight, List.map_const',
    List.sum_replicate, smul_eq_mul]
  exact Nat.mul_comm _ _

theorem messageBits_injective {first second : List UInt8}
    (equal : first.length = second.length)
    (same : messageBits first = messageBits second) : first = second := by
  induction first generalizing second with
  | nil => exact (List.length_eq_zero_iff.mp equal.symm).symm
  | cons byte bytes induction =>
      cases second with
      | nil => exact absurd equal (Nat.succ_ne_zero _)
      | cons other others =>
          have eight (byte : UInt8) : (bitsOf byte.toBitVec).length = 8 := by
            simp [bitsOf]
          have split := List.append_inj same (by rw [eight, eight])
          have bits : ofVec byte.toBitVec = ofVec other.toBitVec := by
            rw [← ofBits_bitsOf, ← ofBits_bitsOf]
            exact congrArg ofBits split.1
          rw [UInt8.toBitVec_inj.mp (ofVec_injective bits),
            induction (Nat.succ.inj equal) split.2]

theorem coeff_message {bytes : List UInt8} {power : Nat}
    (inside : power < (messageBits bytes).length) :
    (ofBits (messageBits bytes)).coeff power =
      bitValue ((messageBits bytes).getD
        ((messageBits bytes).length - 1 - power) false) := by
  have bound : power < (messageBits bytes).reverse.length := by
    rwa [List.length_reverse]
  rw [coeff_ofBits, List.getD_eq_getElem _ _ bound, List.getElem_reverse,
    List.getD_eq_getElem]

/-- The window as powers of `X`. -/
theorem Burst.window {first second : List UInt8}
    (equal : first.length = second.length) (burst : Burst first second) :
    ∃ start, ∀ power,
      (ofBits (messageBits first)).coeff power ≠
          (ofBits (messageBits second)).coeff power →
        start ≤ power ∧ power < start + 16 := by
  obtain ⟨start, window⟩ := burst
  have sameLength : (messageBits second).length =
      (messageBits first).length := by
    rw [messageBits_length, messageBits_length, equal]
  refine ⟨(messageBits first).length - (start + 16), ?_⟩
  intro power differ
  rcases Nat.lt_or_ge power (messageBits first).length with inside | past
  · have places : start ≤ (messageBits first).length - 1 - power ∧
        (messageBits first).length - 1 - power < start + 16 := by
      apply window
      intro same
      apply differ
      rw [coeff_message inside, coeff_message (sameLength ▸ inside),
        sameLength, same]
    omega
  · have zero (bits : List Bool) (short : bits.length ≤ power) :
        (ofBits bits).coeff power = 0 := by
      rw [coeff_ofBits, List.getD_eq_default _ _ (by simpa using short)]
      rfl
    rw [zero _ past, zero _ (sameLength ▸ past)] at differ
    exact absurd rfl differ

theorem eq_of_calcrc_eq {first second : List UInt8}
    (equal : first.length = second.length) (burst : Burst first second)
    (same : calcrc first first.length = calcrc second second.length) :
    first = second := by
  obtain ⟨start, window⟩ := burst.window equal
  have unit : IsUnit ((generator 0x1021#16).coeff 0) := by
    rw [generator_taps]
    simp
  have remainders :
      (ofBits (messageBits first) * X ^ 16) %ₘ generator 0x1021#16 =
        (ofBits (messageBits second) * X ^ 16) %ₘ generator 0x1021#16 := by
    rw [← calcrc_remainder, ← calcrc_remainder, same]
  have message : ofBits (messageBits first) = ofBits (messageBits second) := by
    refine @eq_of_remainder_eq _ _ _ _ (generator_monic _) unit _ _ start 16 ?_
      remainders
    rw [natDegree_generator]
    exact window
  have bits : messageBits first = messageBits second :=
    ofBits_injective
      (by rw [messageBits_length, messageBits_length, equal]) message
  exact messageBits_injective equal bits

/-- Two different messages of equal length that differ within a window of 16
bits have different checksums, so a packet whose payload is damaged there
and whose checksum field is the original one is dropped. -/
theorem bursts_detected {first second : List UInt8}
    (equal : first.length = second.length) (differ : first ≠ second)
    (burst : Burst first second) :
    calcrc first first.length ≠ calcrc second second.length ∧
      ∀ sent received, packetData sent = first →
        packetData received = second →
        packetCrc sent = calcrc (packetData sent) 256 →
        packetCrc received = packetCrc sent →
          packetCrc received ≠ calcrc (packetData received) 256 ∧
            ∀ boot, pocLine received = .packet →
              pocUartMsgDeal boot received = boot := by
  have checksums : calcrc first first.length ≠ calcrc second second.length :=
    fun same => differ (eq_of_calcrc_eq equal burst same)
  refine ⟨checksums, ?_⟩
  intro sent received sentData receivedData original field
  have whole : second.length = 256 := by
    rw [← receivedData]
    exact strToHex_length _ _
  have refused : packetCrc received ≠ calcrc (packetData received) 256 := by
    rw [field, original, sentData, receivedData, ← whole]
    intro same
    rw [← equal] at same
    exact checksums (same.trans (by rw [equal]))
  refine ⟨refused, ?_⟩
  intro boot packet
  have fails : ¬PacketPasses boot.pocDevice.downPackCnt received :=
    fun passes => refused passes.2.1
  simp only [pocUartMsgDeal, packet, dealPacket, if_neg fails]

def damagedPayload : List UInt8 := 1 :: List.replicate 255 0

theorem damagedPayload_burst : Burst zeroPayload damagedPayload := by
  refine ⟨0, ?_⟩
  intro place differ
  refine ⟨Nat.zero_le _, ?_⟩
  by_contra past
  apply differ
  have first : messageBits zeroPayload =
      messageBits [0] ++ messageBits (List.replicate 255 0) := rfl
  have second : messageBits damagedPayload =
      messageBits [1] ++ messageBits (List.replicate 255 0) := rfl
  have eight (byte : UInt8) : (messageBits [byte]).length = 8 :=
    messageBits_length [byte]
  rw [first, second, List.getD_append_right _ _ _ _ (by rw [eight]; omega),
    List.getD_append_right _ _ _ _ (by rw [eight]; omega), eight, eight]

/-- The line with the damaged payload and the checksum of the original one is
dropped. -/
theorem bursts_detected_damaged :
    calcrc zeroPayload 256 ≠ calcrc damagedPayload 256 ∧
      ∀ boot, pocUartMsgDeal boot
        (packetText 1 (calcrc zeroPayload 256) damagedPayload) = boot := by
  have whole : damagedPayload.length = 256 := by
    rw [damagedPayload, List.length_cons, List.length_replicate]
  have differ : zeroPayload ≠ damagedPayload := by
    intro same
    exact absurd (congrArg List.head? same) (by decide)
  have detected := bursts_detected (zeroPayload_length.trans whole.symm)
    differ damagedPayload_burst
  have dropped := detected.2 (packetLine 1 zeroPayload)
    (packetText 1 (calcrc zeroPayload 256) damagedPayload)
    (packetLine_data 1 zeroPayload_length) (packetText_data 1 _ whole)
    (by rw [packetLine_crc 1 zeroPayload_length,
      packetLine_data 1 zeroPayload_length])
    (by rw [packetText_crc 1 _ whole, packetLine_crc 1 zeroPayload_length])
  refine ⟨?_, fun boot => dropped.2 boot (packetText_kind 1 _ _)⟩
  have checksums := detected.1
  rwa [zeroPayload_length, whole] at checksums

end Tp79Boot
