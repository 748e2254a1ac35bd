import Mathlib.Data.Nat.Bitwise

/-!
# Bits of a byte

Masks and shifts of a byte, told by its bits.
-/

namespace ByteBits

/-- A mask of one bit tests that bit of the byte. -/
theorem mask_iff_testBit (byte : UInt8) (bit : Nat) (small : bit < 8) :
    (byte &&& (0x01 <<< UInt8.ofNat bit) != 0) = byte.toNat.testBit bit := by
  have shift : (UInt8.ofNat bit).toNat % 8 = bit := by
    have inside : bit < 2 ^ 8 := Nat.lt_trans small (by decide)
    rw [UInt8.toNat_ofNat', Nat.mod_eq_of_lt inside, Nat.mod_eq_of_lt small]
  have power : 2 ^ bit < 2 ^ 8 := Nat.pow_lt_pow_right (by decide) small
  have mask : ((0x01 : UInt8) <<< UInt8.ofNat bit).toNat = 2 ^ bit := by
    rw [UInt8.toNat_shiftLeft, shift, Nat.shiftLeft_eq]
    exact (congrArg (· % 2 ^ 8) (Nat.one_mul _)).trans
      (Nat.mod_eq_of_lt power)
  have masked : (byte &&& (0x01 <<< UInt8.ofNat bit)).toNat =
      (byte.toNat.testBit bit).toNat * 2 ^ bit := by
    rw [UInt8.toNat_and, mask, Nat.and_two_pow]
  apply Bool.eq_iff_iff.mpr
  rw [bne_iff_ne, ne_eq, ← UInt8.toNat_inj, masked]
  cases byte.toNat.testBit bit with
  | false => simp
  | true => simp

/-- Two bytes agree on their first bits exactly when the remainders do. -/
theorem testBit_below_iff (first second count : Nat) :
    (∀ bit < count, first.testBit bit = second.testBit bit) ↔
      first % 2 ^ count = second % 2 ^ count := by
  constructor
  · intro agree
    apply Nat.eq_of_testBit_eq
    intro bit
    rw [Nat.testBit_mod_two_pow, Nat.testBit_mod_two_pow]
    by_cases below : bit < count
    · rw [agree bit below]
    · simp [below]
  · intro same bit below
    have bits := congrArg (Nat.testBit · bit) same
    simpa [Nat.testBit_mod_two_pow, below] using bits

theorem shiftLeft_testBit (byte : UInt8) {bit : Nat} (small : bit < 7) :
    (byte <<< 1).toNat.testBit (bit + 1) = byte.toNat.testBit bit := by
  have one : (1 : UInt8).toNat % 8 = 1 := rfl
  have below : bit + 1 < 8 := Nat.succ_lt_succ small
  rw [UInt8.toNat_shiftLeft, one, Nat.testBit_mod_two_pow,
    Nat.testBit_shiftLeft]
  simp [below]

end ByteBits
