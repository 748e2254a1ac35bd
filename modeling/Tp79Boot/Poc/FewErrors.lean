import Tp79Boot.Lib.FewErrors
import Tp79Boot.Poc.Checksum

/-!
# Packets with few wrong bits

A packet line carries a word of 2064 bits, the payload and the checksum after
it.  The checksum is right when the generator divides the word, so a line
whose word came with two wrong bits, or with an odd number of them, is
dropped wherever the bits are, in the checksum too.
-/

namespace Tp79Boot

open Polynomial ShiftRegister

/-- The payload and the checksum of the line. -/
def packetWord (ptr : List UInt8) : List Bool :=
  messageBits (packetData ptr) ++ bitsOf (packetCrc ptr).toBitVec

theorem packetData_length (ptr : List UInt8) :
    (packetData ptr).length = 256 :=
  strToHex_length _ _

theorem packetWord_length (ptr : List UInt8) :
    (packetWord ptr).length = 2064 := by
  have crc : (bitsOf (packetCrc ptr).toBitVec).length = 16 := by
    simp [bitsOf]
  rw [packetWord, List.length_append, messageBits_length, packetData_length,
    crc]

theorem packetCrc_right_iff (ptr : List UInt8) :
    packetCrc ptr = calcrc (packetData ptr) 256 ↔
      generator 0x1021#16 ∣ ofBits (packetWord ptr) := by
  have sum := calcrc_remainder (packetData ptr)
  rw [packetData_length] at sum
  rw [packetWord, ← appended_iff, ← sum]
  constructor
  · intro right
    rw [right]
  · intro same
    exact UInt16.toBitVec_inj.mp (ofVec_injective same)

theorem generator_root : (generator 0x1021#16).eval 1 = 0 := by
  rw [generator_taps]
  simp only [eval_add, eval_pow, eval_X, one_pow, eval_one]
  decide

theorem generator_unit : IsUnit ((generator 0x1021#16).coeff 0) := by
  rw [generator_taps]
  simp

/-- The register comes back to a one only after more turns than a word has
bits. -/
theorem register_staysAway :
    staysAway 0x1021#16 2063 (shiftBit 0x1021#16 1) = true := by
  decide +kernel

/-- A line that was sent with the right checksum and whose word comes with
two wrong bits or with an odd number of wrong bits, payload or checksum, has
a wrong checksum and changes nothing. -/
theorem few_errors_detected {sent received : List UInt8}
    (right : packetCrc sent = calcrc (packetData sent) 256)
    (few : (wrongBits (packetWord sent) (packetWord received)).count true = 2 ∨
      Odd ((wrongBits (packetWord sent) (packetWord received)).count true)) :
    packetCrc received ≠ calcrc (packetData received) 256 ∧
      ∀ boot, pocLine received = .packet →
        pocUartMsgDeal boot received = boot := by
  have equal : (packetWord sent).length = (packetWord received).length := by
    rw [packetWord_length, packetWord_length]
  have short : (wrongBits (packetWord sent)
      (packetWord received)).length = 2064 := by
    rw [wrongBits, List.length_zipWith, packetWord_length, packetWord_length,
      Nat.min_self]
  have refused : packetCrc received ≠ calcrc (packetData received) 256 := by
    intro passed
    have divided := dvd_add ((packetCrc_right_iff sent).mp right)
      ((packetCrc_right_iff received).mp passed)
    rw [← ofBits_wrongBits equal] at divided
    rcases few with two | odd
    · exact not_dvd_of_two (by decide) generator_unit register_staysAway
        (Nat.le_of_eq short) two divided
    · exact not_dvd_of_odd generator_root odd divided
  refine ⟨refused, ?_⟩
  intro boot packet
  have fails : ¬PacketPasses boot.pocDevice.downPackCnt received :=
    fun passes => refused passes.2.1
  simp only [pocUartMsgDeal, packet, dealPacket, if_neg fails]

/-- The line of a payload of zeros with a wrong bit in the first byte and one
in the checksum. -/
def twiceDamaged : List UInt8 :=
  packetText 1 (calcrc zeroPayload 256 ^^^ 1) damagedPayload

theorem calcrc_zeroPayload : calcrc zeroPayload 256 = 0 := by
  have zeros (count : Nat) :
      (List.replicate count (0 : UInt8)).foldl calcrcByte 0 = 0 := by
    induction count with
    | zero => rfl
    | succ count induction =>
        have start : calcrcByte 0 0 = 0 := by decide
        rw [List.replicate_succ, List.foldl_cons, start, induction]
  have whole := bytesAt_whole zeroPayload
  rw [zeroPayload_length] at whole
  rw [calcrc, whole]
  exact zeros 256

theorem twiceDamaged_count :
    (wrongBits (packetWord (packetLine 1 zeroPayload))
      (packetWord twiceDamaged)).count true = 2 := by
  have whole : damagedPayload.length = 256 := by
    rw [damagedPayload, List.length_cons, List.length_replicate]
  rw [packetWord, packetWord, packetLine_data 1 zeroPayload_length,
    packetLine_crc 1 zeroPayload_length, twiceDamaged, packetText_data 1 _ whole,
    packetText_crc 1 _ whole,
    calcrc_zeroPayload]
  decide +kernel

theorem few_errors_detected_twice :
    packetCrc twiceDamaged ≠ calcrc (packetData twiceDamaged) 256 ∧
      ∀ boot, pocUartMsgDeal boot twiceDamaged = boot := by
  have detected := @few_errors_detected (packetLine 1 zeroPayload)
    twiceDamaged
    (by rw [packetLine_crc 1 zeroPayload_length,
      packetLine_data 1 zeroPayload_length])
    (.inl twiceDamaged_count)
  exact ⟨detected.1, fun boot => detected.2 boot (packetText_kind 1 _ _)⟩

end Tp79Boot
