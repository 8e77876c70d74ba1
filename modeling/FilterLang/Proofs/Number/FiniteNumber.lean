import FilterLang.Number.Binary64
import Mathlib.Tactic.Ring

/-!
# Finite numbers are their values

The exact value of a finite number determines its bits: the significand and its last place can be
read off the absolute value, and only a zero could carry either sign. Comparison of bits is
therefore comparison of values, and a double is kept as the one finite number of its value.
-/

namespace FilterLang

namespace Binary64

variable {x y : Binary64}

theorem fraction_lt (x : Binary64) : x.fraction < Nat.pow 2 52 := Nat.mod_lt _ (by decide)

theorem significand_lt (x : Binary64) : x.significand < 2 * Nat.pow 2 52 := by
  have bound := x.fraction_lt
  unfold significand
  split <;> omega

theorem magnitude_subnormal (subnormal : x.exponentField = 0) : x.magnitude = x.fraction := by
  simp [magnitude, significand, lastPlace, subnormal]

theorem magnitude_normal {places : Nat} (normal : x.exponentField = places + 1) :
    x.magnitude = (Nat.pow 2 52 + x.fraction) * Nat.pow 2 places := by
  simp [magnitude, significand, lastPlace, normal]

/-- Of two numbers, the one with the greater exponent field has the greater absolute value. -/
theorem magnitude_lt_of_exponentField_lt (less : x.exponentField < y.exponentField) :
    x.magnitude < y.magnitude := by
  have normal : y.exponentField ≠ 0 := by omega
  have atLeast : Nat.pow 2 52 * Nat.pow 2 y.lastPlace ≤ y.magnitude := by
    apply Nat.mul_le_mul_right
    simp [significand, normal]
  apply Nat.lt_of_lt_of_le _ atLeast
  by_cases subnormal : x.exponentField = 0
  · rw [magnitude_subnormal subnormal]
    exact Nat.lt_of_lt_of_le x.fraction_lt (Nat.le_mul_of_pos_right _ (Nat.pow_pos (by decide)))
  · have places : x.lastPlace + 1 ≤ y.lastPlace := by
      unfold lastPlace
      omega
    calc x.magnitude < 2 * Nat.pow 2 52 * Nat.pow 2 x.lastPlace :=
          Nat.mul_lt_mul_of_pos_right x.significand_lt (Nat.pow_pos (by decide))
      _ = Nat.pow 2 52 * Nat.pow 2 (x.lastPlace + 1) := by
          rw [Nat.pow_eq, Nat.pow_eq, Nat.pow_eq, Nat.pow_succ]
          ring
      _ ≤ Nat.pow 2 52 * Nat.pow 2 y.lastPlace :=
          Nat.mul_le_mul_left _ (Nat.pow_le_pow_right (by decide) places)

theorem fields_of_magnitude (same : x.magnitude = y.magnitude) :
    x.exponentField = y.exponentField ∧ x.fraction = y.fraction := by
  have exponent : x.exponentField = y.exponentField := by
    rcases Nat.lt_trichotomy x.exponentField y.exponentField with less | equal | greater
    · exact absurd same (Nat.ne_of_lt (magnitude_lt_of_exponentField_lt less))
    · exact equal
    · exact absurd same.symm (Nat.ne_of_lt (magnitude_lt_of_exponentField_lt greater))
  have significand : x.significand = y.significand := by
    have places : x.lastPlace = y.lastPlace := by rw [lastPlace, lastPlace, exponent]
    rw [magnitude, magnitude, places] at same
    exact Nat.eq_of_mul_eq_mul_right (Nat.pow_pos (by decide)) same
  refine ⟨exponent, ?_⟩
  simp only [Binary64.significand, exponent] at significand
  split at significand <;> omega

/-- A number is its sign, its exponent field and its fraction. -/
theorem toNat_bits (x : Binary64) :
    x.bits.toNat =
      (if x.isNegative then Nat.pow 2 63 else 0) + x.exponentField * Nat.pow 2 52 + x.fraction := by
  have bound := x.bits.isLt
  have sign : x.isNegative = decide (Nat.pow 2 63 ≤ x.bits.toNat) := by
    simp [isNegative, BitVec.msb_eq_decide]
  simp only [sign, exponentField, fraction]
  simp only [Nat.pow_eq, Nat.reducePow, decide_eq_true_eq] at bound ⊢
  split <;> omega

theorem eq_of_magnitude (sign : x.isNegative = y.isNegative) (same : x.magnitude = y.magnitude) :
    x = y := by
  rcases fields_of_magnitude same with ⟨exponent, fraction⟩
  have bits : x.bits = y.bits := by
    apply BitVec.eq_of_toNat_eq
    rw [toNat_bits, toNat_bits, sign, exponent, fraction]
  rcases x with ⟨xBits⟩
  rcases y with ⟨yBits⟩
  exact congrArg Binary64.mk bits

/-- A number of no absolute value is one of the two zeros. -/
theorem zero_of_magnitude (zero : x.magnitude = 0) :
    x.bits = 0 ∨ x.bits = BitVec.twoPow 64 63 := by
  rcases fields_of_magnitude (show x.magnitude = (⟨0⟩ : Binary64).magnitude from zero) with
    ⟨exponent, fraction⟩
  have noExponent : x.exponentField = 0 := exponent
  have noFraction : x.fraction = 0 := fraction
  have bits := x.toNat_bits
  rw [noExponent, noFraction] at bits
  cases negative : x.isNegative with
  | false =>
      left
      apply BitVec.eq_of_toNat_eq
      simpa [negative] using bits
  | true =>
      right
      apply BitVec.eq_of_toNat_eq
      simpa [negative] using bits

end Binary64

namespace FiniteNumber

/-- A finite number below the zero has an absolute value. -/
theorem magnitude_ne_zero {number : FiniteNumber} (negative : number.value.isNegative = true) :
    number.value.magnitude ≠ 0 := by
  intro zero
  rcases Binary64.zero_of_magnitude zero with unsigned | signed
  · rw [Binary64.isNegative, unsigned] at negative
    cases negative
  · exact number.unsignedZero signed

/-- Finite numbers are the same bits exactly if they are the same value. -/
theorem eq_iff_units {first second : FiniteNumber} :
    first = second ↔ first.value.units = second.value.units := by
  constructor
  · rintro rfl
    rfl
  · intro same
    have value : first.value = second.value := by
      cases sign : first.value.isNegative <;> cases otherSign : second.value.isNegative <;>
        simp only [Binary64.units, sign, otherSign, if_true, Bool.false_eq_true, if_false] at same
      · exact Binary64.eq_of_magnitude (sign.trans otherSign.symm) (by omega)
      · exact absurd (by omega) (magnitude_ne_zero otherSign)
      · exact absurd (by omega) (magnitude_ne_zero sign)
      · exact Binary64.eq_of_magnitude (sign.trans otherSign.symm) (by omega)
    rcases first with ⟨firstValue, _, _⟩
    rcases second with ⟨secondValue, _, _⟩
    simp only at value
    subst value
    rfl

section OfBinary64?

variable {double : Binary64} {number : FiniteNumber}

theorem signedZero_value (signedZero : double.bits = BitVec.twoPow 64 63) :
    double.isFinite = true ∧ (⟨0⟩ : Binary64).units = double.units := by
  rcases double with ⟨bits⟩
  simp only at signedZero
  subst signedZero
  exact ⟨by decide, by decide⟩

/-- A finite double becomes a finite number of the same value. -/
theorem exists_ofBinary64? (finite : double.isFinite = true) :
    ∃ number, ofBinary64? double = some number ∧ number.value.units = double.units := by
  rw [ofBinary64?]
  split
  · next signedZero => exact ⟨_, rfl, (signedZero_value signedZero).2⟩
  · exact ⟨_, rfl, rfl⟩

/-- The finite numbers that doubles become are the ones of the same value. -/
theorem ofBinary64?_eq_some :
    ofBinary64? double = some number ↔
      double.isFinite = true ∧ number.value.units = double.units := by
  constructor
  · intro isNumber
    have finite : double.isFinite = true := by
      rw [ofBinary64?] at isNumber
      split at isNumber
      · next signedZero => exact (signedZero_value signedZero).1
      · split at isNumber
        · assumption
        · cases isNumber
    rcases exists_ofBinary64? finite with ⟨other, isOther, same⟩
    rw [isNumber] at isOther
    cases isOther
    exact ⟨finite, same⟩
  · rintro ⟨finite, same⟩
    rcases exists_ofBinary64? finite with ⟨other, isOther, value⟩
    rw [isOther, eq_iff_units.mpr (same.trans value.symm)]

end OfBinary64?

end FiniteNumber

end FilterLang
