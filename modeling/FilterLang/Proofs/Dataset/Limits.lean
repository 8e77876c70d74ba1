import FilterLang.Dataset.Limits
import FilterLang.Proofs.Number.Nearest

/-!
# Limits on integers

An integer is compared with the admitted values and with the bounds of a field as the double nearest
to it. Rounding does not carry it past a bound, so that what is reported is a violation. But beyond
53 bits it can carry the integer onto a bound that it exceeds, or onto what an admitted value is
rounded to, and then a violation goes unreported.
-/

namespace FilterLang

namespace Limits

/-- When a value is found to exceed a limit, with numbers taken as doubles. -/
def Exceeds (limits : Limits) (value : Scalar) : Violation → Prop
  | .unlisted admitted => admitted = limits.oneOf ∧ admitted ≠ [] ∧
    ∀ other ∈ admitted, sameValue other value = false
  | .belowMinimum min => ∃ number, value.number? = some number ∧
    limits.min = some min ∧ number.lt min = true
  | .aboveMaximum max => ∃ number, value.number? = some number ∧
    limits.max = some max ∧ max.lt number = true
  | .tooShort minLength => ∃ text, value.text? = some text ∧
    limits.minLength = some minLength ∧ text.length < minLength
  | .tooLong maxLength => ∃ text, value.text? = some text ∧
    limits.maxLength = some maxLength ∧ maxLength < text.length

variable {limits : Limits} {value other : Int64}

theorem mem_violations {value : Scalar} {violation : Violation} :
    violation ∈ limits.violations value ↔ limits.Exceeds value violation := by
  have among : violation ∈ limits.violations value ↔
      limits.listViolation? value = some violation ∨ limits.minViolation? value = some violation ∨
        limits.maxViolation? value = some violation ∨
          limits.minLengthViolation? value = some violation ∨
            limits.maxLengthViolation? value = some violation := by
    simp [violations, eq_comm]
  rw [among, listViolation?, minViolation?, maxViolation?, minLengthViolation?, maxLengthViolation?]
  cases violation with
  | unlisted admitted =>
      simp only [bind, Option.bind_eq_some_iff, Option.ite_none_right_eq_some,
        Option.ite_none_left_eq_some, Option.some.injEq, reduceCtorEq, and_false, exists_false,
        or_false, Exceeds, Violation.unlisted.injEq]
      rw [and_comm, @eq_comm _ limits.oneOf]
      apply and_congr_right
      rintro rfl
      simp
  | _ => simp [Option.bind_eq_some_iff, Exceeds]

section Integers

theorem natAbs_toInt_lt (value : Int64) : value.toInt.natAbs < 2 ^ 64 := by
  have least := value.le_toInt
  have greatest := value.toInt_lt
  omega

theorem sameValue_int :
    sameValue (.int value) (.int other) = true ↔
      roundInt value.toInt = roundInt other.toInt := by
  rw [← Binary64.ofInt_eq_ofInt (natAbs_toInt_lt value) (natAbs_toInt_lt other)]
  simp [sameValue, Scalar.number?]

theorem exceeds_unlisted {admitted : List Scalar}
    (integers : ∀ other ∈ limits.oneOf, ∃ n, other = .int n) :
    limits.Exceeds (.int value) (.unlisted admitted) ↔
      admitted = limits.oneOf ∧ admitted ≠ [] ∧
        ∀ n, .int n ∈ admitted → roundInt n.toInt ≠ roundInt value.toInt := by
  apply and_congr_right
  rintro rfl
  apply and_congr_right
  intro _
  constructor
  · intro unlisted n present same
    have listed := sameValue_int.mpr same
    rw [unlisted _ present] at listed
    cases listed
  · intro different other present
    rcases integers other present with ⟨n, rfl⟩
    rw [Bool.eq_false_iff]
    intro listed
    exact different n present (sameValue_int.mp listed)

theorem exceeds_belowMinimum {min : Binary64}
    (finite : limits.min = some min → min.isFinite = true) :
    limits.Exceeds (.int value) (.belowMinimum min) ↔
      limits.min = some min ∧ value.toInt * 2 ^ 1074 < min.units ∧
        roundInt value.toInt * 2 ^ 1074 ≠ min.units := by
  have small := natAbs_toInt_lt value
  simp only [Exceeds, Scalar.number?, Option.some.injEq, exists_eq_left']
  apply and_congr_right
  intro isMinimum
  exact Binary64.ofInt_lt_iff small (finite isMinimum)

theorem exceeds_aboveMaximum {max : Binary64}
    (finite : limits.max = some max → max.isFinite = true) :
    limits.Exceeds (.int value) (.aboveMaximum max) ↔
      limits.max = some max ∧ max.units < value.toInt * 2 ^ 1074 ∧
        roundInt value.toInt * 2 ^ 1074 ≠ max.units := by
  have small := natAbs_toInt_lt value
  simp only [Exceeds, Scalar.number?, Option.some.injEq, exists_eq_left']
  apply and_congr_right
  intro isMaximum
  exact Binary64.lt_ofInt_iff small (finite isMaximum)

section Exact

variable (small : value.toInt.natAbs < 2 ^ 53)
include small

theorem exceeds_unlisted_exactly {admitted : List Scalar}
    (integers : ∀ other ∈ limits.oneOf, ∃ n, other = .int n) :
    limits.Exceeds (.int value) (.unlisted admitted) ↔
      admitted = limits.oneOf ∧ admitted ≠ [] ∧ .int value ∉ admitted := by
  have onlyItself : ∀ n : Int64, roundInt n.toInt = value.toInt ↔ n = value := by
    intro n
    rw [roundInt_eq small, Int64.toInt_inj]
  rw [exceeds_unlisted integers, roundInt_of_lt small]
  simp only [ne_eq, onlyItself, imp_not_comm, forall_eq]

theorem exceeds_belowMinimum_exactly {min : Binary64}
    (finite : limits.min = some min → min.isFinite = true) :
    limits.Exceeds (.int value) (.belowMinimum min) ↔
      limits.min = some min ∧ value.toInt * 2 ^ 1074 < min.units := by
  have strict : value.toInt * 2 ^ 1074 < min.units → value.toInt * 2 ^ 1074 ≠ min.units :=
    Int.ne_of_lt
  rw [exceeds_belowMinimum finite, roundInt_of_lt small, and_iff_left_of_imp strict]

theorem exceeds_aboveMaximum_exactly {max : Binary64}
    (finite : limits.max = some max → max.isFinite = true) :
    limits.Exceeds (.int value) (.aboveMaximum max) ↔
      limits.max = some max ∧ max.units < value.toInt * 2 ^ 1074 := by
  have strict : max.units < value.toInt * 2 ^ 1074 → value.toInt * 2 ^ 1074 ≠ max.units :=
    Int.ne_of_gt
  rw [exceeds_aboveMaximum finite, roundInt_of_lt small, and_iff_left_of_imp strict]

end Exact

/-- An integer that is not listed, and not reported for it, is rounded like a listed one. An integer
that is beyond a bound, and not reported for it, is rounded to that bound. Nothing is reported
without reason, and below 53 bits nothing goes unreported. -/
theorem violations_int (limits : Limits) (value : Int64)
    (integers : ∀ other ∈ limits.oneOf, ∃ n, other = .int n)
    (finiteMin : ∀ min, limits.min = some min → min.isFinite = true)
    (finiteMax : ∀ max, limits.max = some max → max.isFinite = true) :
    ((∀ admitted, .unlisted admitted ∈ limits.violations (.int value) ↔
        admitted = limits.oneOf ∧ admitted ≠ [] ∧
          ∀ n, .int n ∈ admitted → roundInt n.toInt ≠ roundInt value.toInt) ∧
      (∀ min, .belowMinimum min ∈ limits.violations (.int value) ↔
        limits.min = some min ∧ value.toInt * 2 ^ 1074 < min.units ∧
          roundInt value.toInt * 2 ^ 1074 ≠ min.units) ∧
      ∀ max, .aboveMaximum max ∈ limits.violations (.int value) ↔
        limits.max = some max ∧ max.units < value.toInt * 2 ^ 1074 ∧
          roundInt value.toInt * 2 ^ 1074 ≠ max.units) ∧
    (value.toInt.natAbs < 2 ^ 53 →
      (∀ admitted, .unlisted admitted ∈ limits.violations (.int value) ↔
        admitted = limits.oneOf ∧ admitted ≠ [] ∧ .int value ∉ admitted) ∧
      (∀ min, .belowMinimum min ∈ limits.violations (.int value) ↔
        limits.min = some min ∧ value.toInt * 2 ^ 1074 < min.units) ∧
      ∀ max, .aboveMaximum max ∈ limits.violations (.int value) ↔
        limits.max = some max ∧ max.units < value.toInt * 2 ^ 1074) := by
  simp only [mem_violations]
  constructor
  · exact ⟨fun _ => exceeds_unlisted integers, fun min => exceeds_belowMinimum (finiteMin min),
      fun max => exceeds_aboveMaximum (finiteMax max)⟩
  · intro small
    exact ⟨fun _ => exceeds_unlisted_exactly small integers,
      fun min => exceeds_belowMinimum_exactly small (finiteMin min),
      fun max => exceeds_aboveMaximum_exactly small (finiteMax max)⟩

/-- The double of `2 ^ 53`. -/
def twoPow53 : Binary64 := ⟨0x4340000000000000⟩

/-- Limits that admit `2 ^ 53` only, in two ways. -/
def soleInteger : Limits :=
  ⟨.none, some twoPow53, .none, .none, [.int 9007199254740992]⟩

/-- The next integer is rounded to that one, and is not found to exceed either limit. -/
theorem violations_int_soleInteger :
    .int 9007199254740993 ∉ soleInteger.oneOf ∧
      twoPow53.units < (9007199254740993 : Int64).toInt * 2 ^ 1074 ∧
      .unlisted soleInteger.oneOf ∉ soleInteger.violations (.int 9007199254740993) ∧
        .aboveMaximum twoPow53 ∉ soleInteger.violations (.int 9007199254740993) := by
  have integers : ∀ other ∈ soleInteger.oneOf, ∃ n, other = .int n := by simp [soleInteger]
  have finite : twoPow53.isFinite = true := by decide
  have rounded : roundInt (9007199254740993 : Int64).toInt = 9007199254740992 := by decide
  rcases violations_int soleInteger 9007199254740993 integers (by simp [soleInteger])
    (by simp [soleInteger, finite]) with ⟨⟨unlisted, _, above⟩, _⟩
  refine ⟨by simp [soleInteger], ?_, ?_, ?_⟩
  · decide +kernel
  · rw [unlisted]
    rintro ⟨_, _, different⟩
    exact different 9007199254740992 (by simp [soleInteger]) (by decide)
  · rw [above, rounded]
    rintro ⟨_, _, different⟩
    exact different (by decide +kernel)

end Integers

end Limits

end FilterLang
