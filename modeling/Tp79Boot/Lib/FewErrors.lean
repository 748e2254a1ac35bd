import Tp79Boot.Lib.ShiftRegister

/-!
# Few wrong bits

A word that the generator divides is damaged, and the generator divides what
the damage adds to it if the damaged word passes.  A generator with the root
one divides no odd number of bits, and one whose register is long away from
its first state divides no two bits that are not as far apart.
-/

namespace ShiftRegister

open Polynomial

/-- Where two words differ. -/
def wrongBits (first second : List Bool) : List Bool :=
  List.zipWith xor first second

theorem ofBits_cons (bit : Bool) (bits : List Bool) :
    ofBits (bit :: bits) =
      C (bitValue bit) * X ^ bits.length + ofBits bits := by
  have single : ofBits [bit] = C (bitValue bit) := by simp [ofBits]
  rw [← List.singleton_append, ofBits_append, single]

theorem ofBits_wrongBits {first second : List Bool}
    (equal : first.length = second.length) :
    ofBits (wrongBits first second) = ofBits first + ofBits second := by
  induction first generalizing second with
  | nil =>
      rw [List.length_eq_zero_iff.mp equal.symm]
      simp [wrongBits, ofBits]
  | cons bit bits induction =>
      cases second with
      | nil => cases equal
      | cons other others =>
          have tails : bits.length = others.length := Nat.succ.inj equal
          have cut : wrongBits (bit :: bits) (other :: others) =
              (bit ^^ other) :: wrongBits bits others := rfl
          have length : (wrongBits bits others).length = bits.length := by
            rw [wrongBits, List.length_zipWith, ← tails, Nat.min_self]
          rw [cut, ofBits_cons, ofBits_cons, ofBits_cons, induction tails,
            length, bitValue_xor, C_add, ← tails]
          ring

theorem eval_ofBits (bits : List Bool) :
    (ofBits bits).eval 1 = (bits.count true : ZMod 2) := by
  induction bits with
  | nil => simp [ofBits]
  | cons bit bits induction =>
      rw [ofBits_cons, eval_add, eval_mul, eval_C, eval_pow, eval_X, one_pow,
        mul_one, induction]
      cases bit with
      | true =>
          rw [List.count_cons_self, Nat.cast_succ, add_comm]
          rfl
      | false =>
          rw [List.count_cons_of_ne (by decide)]
          simp [bitValue]

theorem ofBits_false_cons (bits : List Bool) :
    ofBits (false :: bits) = ofBits bits := by
  rw [ofBits_cons]
  simp [bitValue]

theorem ofBits_true_cons (bits : List Bool) :
    ofBits (true :: bits) = X ^ bits.length + ofBits bits := by
  rw [ofBits_cons]
  simp [bitValue]

theorem ofBits_of_count_zero {bits : List Bool}
    (none : bits.count true = 0) : ofBits bits = 0 := by
  induction bits with
  | nil => simp [ofBits]
  | cons bit bits induction =>
      cases bit with
      | true => simp at none
      | false =>
          rw [ofBits_false_cons]
          exact induction (by simpa using none)

theorem ofBits_of_count_one {bits : List Bool}
    (one : bits.count true = 1) :
    ∃ place, place < bits.length ∧ ofBits bits = X ^ place := by
  induction bits with
  | nil => cases one
  | cons bit bits induction =>
      cases bit with
      | true =>
          rw [List.count_cons_self] at one
          refine ⟨bits.length, Nat.lt_succ_self _, ?_⟩
          rw [ofBits_true_cons, ofBits_of_count_zero (Nat.succ.inj one),
            add_zero]
      | false =>
          obtain ⟨place, inside, power⟩ := induction (by simpa using one)
          exact ⟨place, Nat.lt_succ_of_lt inside,
            (ofBits_false_cons bits).trans power⟩

theorem ofBits_of_count_two {bits : List Bool}
    (two : bits.count true = 2) :
    ∃ place gap, 0 < gap ∧ place + gap < bits.length ∧
      ofBits bits = X ^ place * (X ^ gap + 1) := by
  induction bits with
  | nil => cases two
  | cons bit bits induction =>
      cases bit with
      | true =>
          rw [List.count_cons_self] at two
          obtain ⟨place, inside, power⟩ :=
            ofBits_of_count_one (Nat.succ.inj two)
          refine ⟨place, bits.length - place, by omega, ?_, ?_⟩
          · rw [List.length_cons]
            omega
          · have whole : place + (bits.length - place) = bits.length := by
              omega
            rw [ofBits_true_cons, power, mul_add, ← pow_add, whole, mul_one]
      | false =>
          obtain ⟨place, gap, apart, inside, powers⟩ :=
            induction (by simpa using two)
          exact ⟨place, gap, apart, Nat.lt_succ_of_lt inside,
            (ofBits_false_cons bits).trans powers⟩

section

variable {width : Nat} {taps : BitVec width} {bits : List Bool}

/-- What follows the message is its remainder when the generator divides the
whole. -/
theorem appended_iff (message : List Bool) (register : BitVec width) :
    ofVec register =
        (ofBits message * X ^ width) %ₘ generator taps ↔
      generator taps ∣ ofBits (message ++ bitsOf register) := by
  have monic := generator_monic taps
  have length : (bitsOf register).length = width := by simp [bitsOf]
  have reduced : ofVec register %ₘ generator taps = ofVec register := by
    rw [modByMonic_eq_self_iff monic, degree_generator]
    exact degree_ofVec_lt register
  rw [ofBits_append, ofBits_bitsOf, length, ← CharTwo.sub_eq_add,
    ← remainder_eq_iff monic, reduced]
  exact eq_comm

theorem not_dvd_of_odd (root : (generator taps).eval 1 = 0)
    (odd : Odd (bits.count true)) : ¬generator taps ∣ ofBits bits := by
  rintro ⟨quotient, product⟩
  have value := congrArg (eval 1) product
  rw [eval_mul, root, zero_mul, eval_ofBits] at value
  have one : ((bits.count true : ℕ) : ZMod 2) = 1 :=
    ZMod.natCast_eq_one_iff_odd.mpr odd
  rw [one] at value
  exact one_ne_zero value

/-- The register does not hold a one for so many turns. -/
def staysAway (taps : BitVec width) : Nat → BitVec width → Bool
  | 0, _ => true
  | turns + 1, register =>
      register != 1 && staysAway taps turns (shiftBit taps register)

theorem staysAway_iterate {turns : Nat} {register : BitVec width}
    (away : staysAway taps turns register = true) {turn : Nat}
    (early : turn < turns) : (shiftBit taps)^[turn] register ≠ 1 := by
  induction turns generalizing register turn with
  | zero => exact absurd early (Nat.not_lt_zero turn)
  | succ turns induction =>
      rw [staysAway, Bool.and_eq_true, bne_iff_ne] at away
      cases turn with
      | zero => exact away.1
      | succ turn =>
          rw [Function.iterate_succ_apply]
          exact induction away.2 (Nat.lt_of_succ_lt_succ early)

theorem ofVec_one (positive : 0 < width) : ofVec (1 : BitVec width) = 1 := by
  ext place
  rw [coeff_ofVec, coeff_one]
  by_cases first : place = 0
  · subst first
    simp [bitValue, positive]
  · simp [bitValue, first]

theorem not_dvd_of_two (positive : 0 < width)
    (unit : IsUnit ((generator taps).coeff 0)) {turns : Nat}
    (away : staysAway taps turns (shiftBit taps 1) = true)
    (short : bits.length ≤ turns + 1) (two : bits.count true = 2) :
    ¬generator taps ∣ ofBits bits := by
  obtain ⟨place, gap, apart, inside, powers⟩ := ofBits_of_count_two two
  intro divides
  rw [powers] at divides
  have factor := (isCoprime_X_pow unit place).dvd_of_dvd_mul_left divides
  rw [← CharTwo.sub_eq_add] at factor
  have monic := generator_monic taps
  have same := (remainder_eq_iff monic (X ^ gap) 1).mpr factor
  have turned := ofVec_shiftBits positive taps 1 gap
  have start := ofVec_shiftBits positive taps 1 0
  rw [ofVec_one positive, mul_one] at turned
  rw [ofVec_one positive, pow_zero, mul_one, Function.iterate_zero_apply]
    at start
  have back : (shiftBit taps)^[gap] 1 = 1 := by
    apply ofVec_injective
    rw [turned, same, start]
  obtain ⟨turn, rfl⟩ := Nat.exists_eq_succ_of_ne_zero (Nat.ne_of_gt apart)
  rw [Function.iterate_succ_apply] at back
  exact staysAway_iterate away (by omega) back

end

end ShiftRegister
