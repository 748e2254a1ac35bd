import Tp79Boot.Poc.Gating

/-!
# Malformed update lines

`str_to_hex` takes a value from every character, so neither handler notices a
field that is cut short or holds something else than digits.  The packet
handler refuses most of such lines all the same, by their length and their
checksum; the handler of `+POC:4302` has no test at all.
-/

namespace Tp79Boot

def isHexDigit (character : UInt8) : Bool :=
  (48 ≤ character && character ≤ 57) || (65 ≤ character && character ≤ 70) ||
    (97 ≤ character && character ≤ 102)

/-- The line reaches over the whole field, and the field holds digits only. -/
def HexField (ptr : List UInt8) (offset count : Nat) : Prop :=
  ∀ index, index < count → offset + index < strlen ptr ∧
    isHexDigit (byteAt ptr (offset + index)) = true

instance (ptr : List UInt8) (offset count : Nat) :
    Decidable (HexField ptr offset count) :=
  inferInstanceAs (Decidable (∀ index, index < count → _ ∧ _))

/-- An update line with a field that is cut short or not hexadecimal. -/
def Malformed (ptr : List UInt8) : Prop :=
  (memcmpEq ptr 0 (ascii "+POC:4302") 9 ∧ ¬HexField ptr 9 4) ∨
    (memcmpEq ptr 0 (ascii "+POC:4303") 9 ∧
      ¬(HexField ptr 14 4 ∧ HexField ptr 24 512 ∧ HexField ptr 536 4))

/-- `poc_device`, the erase flag and flash are as they were, and nothing was
done to flash. -/
def Untouched (before after : Boot) : Prop :=
  after.pocDevice = before.pocDevice ∧ after.eraseFlag = before.eraseFlag ∧
    after.flash = before.flash

section

variable {boot : Boot} {ptr literal : List UInt8}

theorem memcmpEq_of_begins {size : Nat}
    (begins : memcmpEq ptr 0 literal size) (other : List UInt8) {count : Nat}
    (inside : count ≤ size) :
    memcmpEq ptr 0 other count ↔ memcmpEq literal 0 other count := by
  have front := bytesAt_eq_iff.mp begins
  unfold memcmpEq
  rw [bytesAt_eq_iff, bytesAt_eq_iff]
  refine forall₂_congr fun index bound => ?_
  rw [front index (Nat.lt_of_lt_of_le bound inside)]

theorem pocLine_of_begins (begins : memcmpEq ptr 0 literal 9) :
    pocLine ptr = pocLine literal := by
  unfold pocLine
  simp only [memcmpEq_of_begins begins _ (show 2 ≤ 9 by decide),
    memcmpEq_of_begins begins _ (show 7 ≤ 9 by decide),
    memcmpEq_of_begins begins _ (show 9 ≤ 9 by decide)]

theorem Malformed.kind (malformed : Malformed ptr) :
    pocLine ptr = .downloaded ∨ pocLine ptr = .packet := by
  rcases malformed with ⟨begins, _⟩ | ⟨begins, _⟩
  · exact .inl ((pocLine_of_begins begins).trans (by decide))
  · exact .inr ((pocLine_of_begins begins).trans (by decide))

theorem announcedSum_eq_iff (sum : UInt16) :
    announcedSum ptr = sum ↔
      strToHex (ptr.drop 9) 4 = [highByte sum, lowByte sum] := by
  obtain ⟨high, low, field⟩ : ∃ high low,
      strToHex (ptr.drop 9) 4 = [high, low] := ⟨_, _, rfl⟩
  have value := bytes_toNat sum
  have highBelow := high.toNat_lt
  have lowBelow := low.toNat_lt
  have highByteBelow := (highByte sum).toNat_lt
  have lowByteBelow := (lowByte sum).toNat_lt
  rw [announcedSum, field, ← UInt16.toNat_inj, swapBytes_halfwordOfBytes]
  simp only [List.cons.injEq, and_true, ← UInt8.toNat_inj]
  omega

theorem untouched_downloaded_iff (kind : pocLine ptr = .downloaded) :
    Untouched boot (pocUartMsgDeal boot ptr) ↔
      boot.pocDevice.status = .verUpgrade ∧
        strToHex (ptr.drop 9) 4 =
          [highByte boot.pocDevice.packSum, lowByte boot.pocDevice.packSum] := by
  rw [pocUartMsgDeal_downloaded boot kind, ← announcedSum_eq_iff]
  constructor
  · intro untouched
    have status := congrArg PocDevice.status untouched.1
    have packSum := congrArg PocDevice.packSum untouched.1
    exact ⟨status.symm, packSum⟩
  · intro again
    obtain ⟨status, packSum⟩ := again
    refine ⟨?_, rfl, rfl⟩
    simp only [dealDownloaded, packSum, ← status]

theorem untouched_packet_iff (kind : pocLine ptr = .packet) :
    Untouched boot (pocUartMsgDeal boot ptr) ↔
      ¬PacketPasses boot.pocDevice.downPackCnt ptr := by
  constructor
  · intro untouched passes
    have changed := @log_changed_of_accepts boot ptr ⟨kind, passes⟩
    have same : (pocStep boot (.receive ptr)).flash = boot.flash :=
      untouched.2.2
    exact changed (congrArg NorMemory.Device.log same)
  · intro fails
    simp only [pocUartMsgDeal, kind, dealPacket, if_neg fails]
    exact ⟨rfl, rfl, rfl⟩

end

/-- A malformed line leaves everything as it was exactly when it is a packet
that fails the tests, or a `+POC:4302` that repeats what is known. -/
theorem malformed_untouched_iff (boot : Boot) {ptr : List UInt8}
    (malformed : Malformed ptr) :
    Untouched boot (pocUartMsgDeal boot ptr) ↔
      (pocLine ptr = .packet ∧
          ¬PacketPasses boot.pocDevice.downPackCnt ptr) ∨
        (pocLine ptr = .downloaded ∧
          boot.pocDevice.status = .verUpgrade ∧
          strToHex (ptr.drop 9) 4 =
            [highByte boot.pocDevice.packSum,
              lowByte boot.pocDevice.packSum]) := by
  rcases malformed.kind with kind | kind
  · simp only [untouched_downloaded_iff kind, kind, reduceCtorEq, false_and,
      false_or, true_and]
  · simp only [untouched_packet_iff kind, kind, reduceCtorEq, false_and,
      or_false, true_and]

/-- A packet that is cut short after its name is refused. -/
theorem malformed_untouched_iff_short :
    Untouched (Boot.start (fun _ => 0xFF) installedCfg [])
      (pocUartMsgDeal (Boot.start (fun _ => 0xFF) installedCfg [])
        (ascii "+POC:4303")) := by
  have malformed : Malformed (ascii "+POC:4303") :=
    .inr ⟨by decide, by decide⟩
  have short : ¬540 ≤ strlen (ascii "+POC:4303") := by decide
  apply (malformed_untouched_iff _ malformed).mpr
  exact .inl ⟨by decide, fun passes => short passes.1⟩

/-- `+POC:4302` without a number starts the upgrade. -/
theorem malformed_untouched_downloaded :
    ¬∀ (boot : Boot) (ptr : List UInt8), Malformed ptr →
      Untouched boot (pocUartMsgDeal boot ptr) := by
  intro rejected
  have malformed : Malformed (ascii "+POC:4302") :=
    .inl ⟨by decide, by decide⟩
  have kind : pocLine (ascii "+POC:4302") = .downloaded := by decide
  have untouched := rejected (Boot.start (fun _ => 0xFF) installedCfg [])
    (ascii "+POC:4302") malformed
  have upgrade := ((untouched_downloaded_iff kind).mp untouched).1
  cases upgrade

end Tp79Boot
