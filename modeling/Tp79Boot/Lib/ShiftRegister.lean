import Mathlib.Algebra.CharP.Two
import Mathlib.Algebra.Field.ZMod
import Mathlib.Algebra.Polynomial.Div
import Mathlib.Algebra.Polynomial.Monic
import Mathlib.Data.List.GetD
import Mathlib.Data.ZMod.Basic
import Mathlib.RingTheory.Coprime.Lemmas

/-!
# Shift registers and polynomial remainders

A register of `w` bits stands for a polynomial over the field of two elements.
Shifting it by one place and adding the taps when a one drops out is
multiplication by `X` modulo the generator, so what a register holds after a
message is a remainder.  A remainder tells two messages apart when they differ
in a window no wider than the degree of the generator.
-/

namespace ShiftRegister

open Polynomial

section Remainder

variable {R : Type*} [CommRing R] {generator : R[X]}

theorem mul_remainder (monic : generator.Monic) (first second : R[X]) :
    (first * (second %ₘ generator)) %ₘ generator =
      (first * second) %ₘ generator := by
  apply modByMonic_eq_of_dvd_sub monic
  rw [← mul_sub]
  exact dvd_mul_of_dvd_right (dvd_modByMonic_sub second generator) first

theorem remainder_eq_iff (monic : generator.Monic) (first second : R[X]) :
    first %ₘ generator = second %ₘ generator ↔ generator ∣ first - second := by
  constructor
  · intro same
    rw [← modByMonic_eq_zero_iff_dvd monic, sub_modByMonic, same, sub_self]
  · exact modByMonic_eq_of_dvd_sub monic

/-- Powers of `X` do not matter to a generator whose constant coefficient is a
unit. -/
theorem isCoprime_X_pow (unit : IsUnit (generator.coeff 0)) (count : Nat) :
    IsCoprime generator (X ^ count) := by
  apply IsCoprime.pow_right
  obtain ⟨inverse, one⟩ := isUnit_iff_exists_inv'.mp unit
  have split := divX_mul_X_add generator
  have constant : C inverse * C (generator.coeff 0) = 1 := by
    rw [← C_mul, one, C_1]
  refine ⟨C inverse, -(C inverse * generator.divX), ?_⟩
  calc
    C inverse * generator + -(C inverse * generator.divX) * X =
        C inverse * (generator.divX * X + C (generator.coeff 0)) +
          -(C inverse * generator.divX) * X := by rw [split]
    _ = C inverse * C (generator.coeff 0) := by ring
    _ = 1 := constant

/-- Two polynomials whose coefficients differ only in a window of the degree of
the generator have different remainders, whatever power of `X` they are
multiplied by. -/
theorem eq_of_remainder_eq [Nontrivial R] (monic : generator.Monic)
    (unit : IsUnit (generator.coeff 0)) {first second : R[X]}
    {start shift : Nat}
    (window : ∀ place, first.coeff place ≠ second.coeff place →
      start ≤ place ∧ place < start + generator.natDegree)
    (same : (first * X ^ shift) %ₘ generator =
      (second * X ^ shift) %ₘ generator) : first = second := by
  have divides := (remainder_eq_iff monic _ _).mp same
  have early : X ^ start ∣ first - second := by
    apply X_pow_dvd_iff.mpr
    intro place below
    rw [coeff_sub, sub_eq_zero]
    by_contra differ
    exact Nat.not_lt_of_le (window place differ).1 below
  obtain ⟨burst, split⟩ := early
  have narrow : burst.degree < generator.degree := by
    rw [degree_eq_natDegree monic.ne_zero, degree_lt_iff_coeff_zero]
    intro place above
    have shifted := coeff_X_pow_mul burst start place
    rw [← split, coeff_sub] at shifted
    rw [← shifted, sub_eq_zero]
    by_contra differ
    exact Nat.not_lt_of_le above
      (by have := (window _ differ).2; omega)
  have factor : generator ∣ X ^ (shift + start) * burst := by
    have product : first * X ^ shift - second * X ^ shift =
        X ^ (shift + start) * burst := by
      rw [← sub_mul, split]
      ring
    rw [← product]
    exact divides
  have divided : generator ∣ burst :=
    (isCoprime_X_pow unit _).dvd_of_dvd_mul_left factor
  have zero : burst = 0 := by
    by_contra nonzero
    exact monic.not_dvd_of_degree_lt nonzero narrow divided
  rw [zero, mul_zero] at split
  exact sub_eq_zero.mp split

end Remainder

def bitValue (bit : Bool) : ZMod 2 := if bit then 1 else 0

theorem bitValue_xor (first second : Bool) :
    bitValue (first ^^ second) = bitValue first + bitValue second := by
  cases first <;> cases second <;> decide

theorem bitValue_injective {first second : Bool}
    (same : bitValue first = bitValue second) : first = second := by
  revert same
  cases first <;> cases second <;> decide

/-- Bits in the order in which they are sent: the first one has the highest
power. -/
noncomputable def ofBits (bits : List Bool) : (ZMod 2)[X] :=
  bits.foldl (fun sent bit => sent * X + C (bitValue bit)) 0

/-- The bits of a register: the lowest one has the power zero. -/
noncomputable def ofVec {width : Nat} (register : BitVec width) :
    (ZMod 2)[X] :=
  ∑ place ∈ Finset.range width,
    C (bitValue (register.getLsbD place)) * X ^ place

/-- The bits of a register, highest one first. -/
def bitsOf {width : Nat} (register : BitVec width) : List Bool :=
  (List.range width).map register.getMsbD

theorem ofBits_concat (bits : List Bool) (bit : Bool) :
    ofBits (bits ++ [bit]) = ofBits bits * X + C (bitValue bit) := by
  simp [ofBits]

theorem ofBits_append (first second : List Bool) :
    ofBits (first ++ second) =
      ofBits first * X ^ second.length + ofBits second := by
  induction second using List.reverseRecOn with
  | nil => simp [ofBits]
  | append_singleton second last induction =>
      rw [← List.append_assoc, ofBits_concat, ofBits_concat, induction,
        List.length_append, List.length_singleton]
      ring

theorem coeff_ofBits (bits : List Bool) (place : Nat) :
    (ofBits bits).coeff place = bitValue (bits.reverse.getD place false) := by
  induction bits using List.reverseRecOn generalizing place with
  | nil => simp [ofBits, bitValue]
  | append_singleton bits last induction =>
      rw [ofBits_concat, List.reverse_append, List.reverse_singleton,
        List.singleton_append]
      cases place with
      | zero => simp
      | succ place =>
          rw [coeff_add, coeff_mul_X, coeff_C_succ, add_zero, induction,
            List.getD_cons_succ]

theorem ofBits_injective {first second : List Bool}
    (equal : first.length = second.length)
    (same : ofBits first = ofBits second) : first = second := by
  apply List.reverse_injective
  apply List.ext_getElem
  · rw [List.length_reverse, List.length_reverse, equal]
  · intro place inFirst inSecond
    apply bitValue_injective
    rw [← List.getD_eq_getElem _ false inFirst,
      ← List.getD_eq_getElem _ false inSecond, ← coeff_ofBits,
      ← coeff_ofBits, same]

section

variable {width : Nat}

theorem coeff_ofVec (register : BitVec width) (place : Nat) :
    (ofVec register).coeff place = bitValue (register.getLsbD place) := by
  rw [ofVec, finsetSum_coeff]
  simp only [coeff_C_mul_X_pow]
  rw [Finset.sum_ite_eq]
  split
  · rfl
  next outside =>
    have past : width ≤ place := by simpa using outside
    rw [BitVec.getLsbD_of_ge register place past]
    rfl

theorem ofVec_injective {first second : BitVec width}
    (same : ofVec first = ofVec second) : first = second := by
  apply BitVec.eq_of_getLsbD_eq
  intro place _
  apply bitValue_injective
  rw [← coeff_ofVec, ← coeff_ofVec, same]

theorem ofVec_xor (first second : BitVec width) :
    ofVec (first ^^^ second) = ofVec first + ofVec second := by
  ext place
  rw [coeff_add, coeff_ofVec, coeff_ofVec, coeff_ofVec, BitVec.getLsbD_xor,
    bitValue_xor]

/-- A register at the upper end of a wider one. -/
theorem ofVec_shifted {wider shift : Nat} (fits : width + shift ≤ wider)
    (register : BitVec width) :
    ofVec (register.setWidth wider <<< shift) = X ^ shift * ofVec register := by
  ext place
  rw [coeff_X_pow_mul', coeff_ofVec, BitVec.getLsbD_shiftLeft,
    BitVec.getLsbD_setWidth]
  by_cases low : place < shift
  · have notUp : ¬shift ≤ place := Nat.not_le_of_lt low
    simp [low, notUp, bitValue]
  · have up : shift ≤ place := Nat.le_of_not_lt low
    rw [if_pos up, coeff_ofVec]
    congr 1
    rcases Nat.lt_or_ge (place - shift) width with inside | past
    · have inWider : place < wider := by omega
      have alsoInWider : place - shift < wider := by omega
      simp [low, inWider, alsoInWider]
    · rw [BitVec.getLsbD_of_ge register _ past]
      simp

theorem degree_ofVec_lt (register : BitVec width) :
    (ofVec register).degree < width := by
  rw [degree_lt_iff_coeff_zero]
  intro place past
  rw [coeff_ofVec, BitVec.getLsbD_of_ge register place past]
  rfl

theorem ofBits_bitsOf (register : BitVec width) :
    ofBits (bitsOf register) = ofVec register := by
  ext place
  rw [coeff_ofBits, coeff_ofVec]
  congr 1
  rcases Nat.lt_or_ge place width with inside | past
  · have bound : place < (bitsOf register).reverse.length := by
      simpa [bitsOf] using inside
    rw [List.getD_eq_getElem _ _ bound, List.getElem_reverse]
    have mirrored : width - 1 - place < width := by omega
    have back : width - 1 - (width - 1 - place) = place := by omega
    simp [bitsOf, BitVec.getMsbD_eq_getLsbD, mirrored, back]
  · rw [BitVec.getLsbD_of_ge register place past]
    exact List.getD_eq_default _ _ (by simpa [bitsOf] using past)

/-- What the register divides by: a leading one above the taps. -/
noncomputable def generator (taps : BitVec width) : (ZMod 2)[X] :=
  X ^ width + ofVec taps

/-- One place up; when a one drops out, the taps are added. -/
def shiftBit (taps register : BitVec width) : BitVec width :=
  if register.msb then (register <<< 1) ^^^ taps else register <<< 1

theorem generator_monic (taps : BitVec width) : (generator taps).Monic :=
  monic_X_pow_add (degree_ofVec_lt taps)

theorem degree_generator (taps : BitVec width) :
    (generator taps).degree = width := by
  have taller : (ofVec taps).degree < (X ^ width : (ZMod 2)[X]).degree := by
    rw [degree_X_pow]
    exact degree_ofVec_lt taps
  rw [generator, add_comm, degree_add_eq_right_of_degree_lt taller,
    degree_X_pow]

theorem natDegree_generator (taps : BitVec width) :
    (generator taps).natDegree = width :=
  natDegree_eq_of_degree_eq_some (degree_generator taps)

theorem ofVec_shiftLeft (positive : 0 < width) (register : BitVec width) :
    X * ofVec register =
      ofVec (register <<< 1) + C (bitValue register.msb) * X ^ width := by
  ext place
  rw [coeff_add, coeff_C_mul_X_pow, coeff_ofVec, BitVec.getLsbD_shiftLeft,
    BitVec.msb_eq_getLsbD_last]
  cases place with
  | zero =>
      have notLast : ¬0 = width := Nat.ne_of_lt positive
      simp [notLast, bitValue]
  | succ place =>
      rw [coeff_X_mul, coeff_ofVec]
      by_cases last : place + 1 = width
      · have top : width - 1 = place := by omega
        have out : ¬place + 1 < width := by omega
        simp [last, top, bitValue]
      · rcases Nat.lt_or_ge (place + 1) width with inside | past
        · simp [last, inside]
        · have out : ¬place + 1 < width := by omega
          rw [BitVec.getLsbD_of_ge register place (by omega)]
          simp [last, out]

theorem ofVec_shiftBit (positive : 0 < width) (taps register : BitVec width) :
    ofVec (shiftBit taps register) =
      (X * ofVec register) %ₘ generator taps := by
  have shifted := ofVec_shiftLeft positive register
  have divided : ofVec (shiftBit taps register) +
      generator taps * C (bitValue register.msb) = X * ofVec register := by
    rw [shifted, generator, shiftBit]
    by_cases top : register.msb = true
    · have twice : ofVec taps + ofVec taps = 0 := CharTwo.add_self_eq_zero _
      rw [if_pos top, top, ofVec_xor, bitValue, if_pos rfl, C_1]
      rw [mul_one, one_mul, add_add_add_comm, twice, add_zero]
    · have zero : register.msb = false := Bool.eq_false_iff.mpr top
      rw [if_neg top, zero]
      simp [bitValue]
  have small : (ofVec (shiftBit taps register)).degree <
      (generator taps).degree := by
    rw [degree_generator]
    exact degree_ofVec_lt _
  exact (div_modByMonic_unique _ _ (generator_monic taps)
    ⟨divided, small⟩).2.symm

/-- Several places up. -/
theorem ofVec_shiftBits (positive : 0 < width) (taps register : BitVec width)
    (count : Nat) :
    ofVec ((shiftBit taps)^[count] register) =
      (X ^ count * ofVec register) %ₘ generator taps := by
  induction count with
  | zero =>
      have small : (ofVec register).degree < (generator taps).degree := by
        rw [degree_generator]
        exact degree_ofVec_lt register
      rw [Function.iterate_zero_apply, pow_zero, one_mul,
        (modByMonic_eq_self_iff (generator_monic taps)).mpr small]
  | succ count induction =>
      rw [Function.iterate_succ_apply', ofVec_shiftBit positive, induction,
        mul_remainder (generator_monic taps), ← mul_assoc, ← pow_succ']

end

end ShiftRegister
