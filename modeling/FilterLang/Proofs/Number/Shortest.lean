import FilterLang.Number.Shortest
import Mathlib.Order.Compare
import Mathlib.Tactic.Ring

/-!
# Shortest decimals round to their doubles

Whether a decimal rounds to a double depends on its value alone, so that zeros may be moved between
the digits and the exponent (`roundsTo_shift`). A decimal that the search finds on a grid rounds to
the double because that was tested, and if no grid has one, the exact decimal does, as it lies
inside the interval.
-/

namespace FilterLang

namespace Decimal

/-- The decimal of the same value with more zeros after its digits. -/
def shift (decimal : Decimal) (count : Nat) : Decimal :=
  ⟨decimal.digits * 10 ^ count, decimal.exponent - count⟩

end Decimal

namespace Binary64

variable {x : Binary64} {decimal : Decimal}

theorem compare_mul_right {first second factor : Nat} (positive : 0 < factor) :
    compare (first * factor) (second * factor) = compare first second := by
  rcases Nat.lt_trichotomy first second with less | rfl | greater
  · rw [compare_lt_iff_lt.mpr less,
      compare_lt_iff_lt.mpr (Nat.mul_lt_mul_of_pos_right less positive)]
  · rw [compare_eq_iff_eq.mpr rfl, compare_eq_iff_eq.mpr rfl]
  · rw [compare_gt_iff_gt.mpr greater,
      compare_gt_iff_gt.mpr (Nat.mul_lt_mul_of_pos_right greater positive)]

/-- A comparison of a decimal with a number does not depend on how many of the zeros of the decimal
are counted among its digits, in whatever unit the numbers are. -/
theorem compare_shift (digits count unit quarters : Nat) (exponent : Int) :
    compare (digits * 10 ^ count * Nat.pow 10 (exponent - count).toNat * unit)
        (quarters * Nat.pow 10 (-(exponent - count)).toNat) =
      compare (digits * Nat.pow 10 exponent.toNat * unit)
        (quarters * Nat.pow 10 (-exponent).toNat) := by
  simp only [Nat.pow_eq]
  have positive : ∀ n, 0 < 10 ^ n := fun n => Nat.pow_pos (by decide)
  have powers : 10 ^ count * 10 ^ (exponent - count).toNat * 10 ^ (-exponent).toNat =
      10 ^ exponent.toNat * 10 ^ (-(exponent - count)).toNat := by
    rw [← Nat.pow_add, ← Nat.pow_add, ← Nat.pow_add]
    congr 1
    omega
  rw [← compare_mul_right (positive (-exponent).toNat),
    ← @compare_mul_right (digits * 10 ^ exponent.toNat * unit) _ _
      (positive (-(exponent - count)).toNat)]
  congr 1
  · calc digits * 10 ^ count * 10 ^ (exponent - count).toNat * unit * 10 ^ (-exponent).toNat
      _ = digits * unit *
          (10 ^ count * 10 ^ (exponent - count).toNat * 10 ^ (-exponent).toNat) := by ring
      _ = digits * unit * (10 ^ exponent.toNat * 10 ^ (-(exponent - count)).toNat) := by
          rw [powers]
      _ = digits * 10 ^ exponent.toNat * unit * 10 ^ (-(exponent - count)).toNat := by ring
  · ring

theorem compareQuarters_shift (decimal : Decimal) (count quarters : Nat) :
    compareQuarters (decimal.shift count) quarters = compareQuarters decimal quarters :=
  compare_shift decimal.digits count _ quarters decimal.exponent

theorem roundsTo_shift (x : Binary64) (decimal : Decimal) (count : Nat) :
    x.roundsTo (decimal.shift count) = x.roundsTo decimal := by
  simp only [roundsTo, compareQuarters_shift]

theorem roundsTo_stripZeros (x : Binary64) (fuel : Nat) (decimal : Decimal) :
    x.roundsTo (decimal.stripZeros fuel) = x.roundsTo decimal := by
  induction fuel generalizing decimal with
  | zero => rfl
  | succ fuel ih =>
      rw [Decimal.stripZeros]
      split
      · next zero =>
        have shifted : decimal = Decimal.shift ⟨decimal.digits / 10, decimal.exponent + 1⟩ 1 := by
          have digits : decimal.digits = decimal.digits / 10 * 10 ^ 1 := by omega
          have exponent : decimal.exponent = decimal.exponent + 1 - (1 : Nat) := by omega
          rcases decimal with ⟨_, _⟩
          exact congrArg₂ Decimal.mk digits exponent
        rw [ih, ← roundsTo_shift x _ 1, ← shifted]
      · rfl

theorem choose?_eq_some {belowRounds aboveRounds takesAbove : Bool} {below above : Decimal}
    (found : choose? belowRounds aboveRounds takesAbove below above = some decimal) :
    (decimal = below ∧ belowRounds = true) ∨ (decimal = above ∧ aboveRounds = true) := by
  cases belowRounds <;> cases aboveRounds <;> cases takesAbove <;> cases found <;> simp

/-- What the search finds on a grid has been tested. -/
theorem roundsTo_of_onGrid? {tie : Tie} {exponent : Int}
    (found : x.onGrid? tie exponent = some decimal) : x.roundsTo decimal = true := by
  rcases choose?_eq_some found with ⟨rfl, rounds⟩ | ⟨rfl, rounds⟩
  · exact rounds
  · exact rounds

/-- A magnitude that is written with all its decimal places, compared in quarters. -/
theorem compare_exact {unit places : Nat} (quartered : unit = 4 * Nat.pow 2 places)
    (magnitude quarters : Nat) :
    compare (magnitude * Nat.pow 5 places * Nat.pow 10 0 * unit) (quarters * Nat.pow 10 places) =
      compare (4 * magnitude) quarters := by
  subst quartered
  simp only [Nat.pow_eq]
  rw [← @compare_mul_right (4 * magnitude) quarters (10 ^ places) (Nat.pow_pos (by decide))]
  have powers : 10 ^ places = 5 ^ places * 2 ^ places := (Nat.mul_pow 5 2 places).symm ▸ rfl
  congr 1
  rw [powers]
  ring

theorem exactDecimal_eq {places : Nat} (unit : 1074 = places) :
    x.exactDecimal = ⟨x.magnitude * Nat.pow 5 places, -places⟩ := by
  have exponent : (-1074 : Int) = -places := by omega
  rw [exactDecimal, unit, exponent]

theorem compareQuarters_places {places : Nat} (unit : 1074 = places) (magnitude quarters : Nat) :
    compareQuarters ⟨magnitude * Nat.pow 5 places, -places⟩ quarters =
      compare (4 * magnitude) quarters := by
  have quarter : 1076 = places + 2 := by omega
  have quartered : Nat.pow 2 (places + 2) = 4 * Nat.pow 2 places := by
    simp only [Nat.pow_eq]
    ring
  have below : (-(places : Int)).toNat = 0 := by omega
  have above : (- -(places : Int)).toNat = places := by omega
  rw [compareQuarters, quarter, below, above]
  exact compare_exact quartered magnitude quarters

theorem compareQuarters_exactDecimal (x : Binary64) (quarters : Nat) :
    compareQuarters x.exactDecimal quarters = compare (4 * x.magnitude) quarters := by
  rw [exactDecimal_eq rfl, compareQuarters_places rfl]

theorem compareQuarters_zero (quarters : Nat) :
    compareQuarters ⟨0, 0⟩ quarters = compare 0 quarters := by
  simp only [compareQuarters, Nat.zero_mul, neg_zero, Int.toNat_zero]
  exact congrArg (compare 0) (Nat.mul_one quarters)

/-- A double other than zero lies inside the interval of the numbers that round to it. -/
theorem roundsTo_exactDecimal (nonzero : x.magnitude ≠ 0) : x.roundsTo x.exactDecimal = true := by
  have positive : ∀ n, 0 < Nat.pow 2 n := fun n => Nat.pow_pos (by decide)
  have below : x.lowerEnd < 4 * x.magnitude := by
    have half := positive x.lastPlace
    have whole := positive (x.lastPlace + 1)
    simp only [lowerEnd]
    split <;> omega
  have above : 4 * x.magnitude < x.upperEnd := Nat.lt_add_of_pos_right (positive _)
  simp [roundsTo, compareQuarters_exactDecimal, compare_gt_iff_gt.mpr below,
    compare_lt_iff_lt.mpr above]

theorem roundsTo_zero (zero : x.magnitude = 0) : x.roundsTo ⟨0, 0⟩ = true := by
  have positive : ∀ n, 0 < Nat.pow 2 n := fun n => Nat.pow_pos (by decide)
  have even : x.significand = 0 := by
    rcases Nat.mul_eq_zero.mp zero with none | none
    · exact none
    · exact absurd none (positive _).ne'
  have noLower : x.lowerEnd = 0 := by simp [lowerEnd, zero]
  have upper : 0 < x.upperEnd := by
    have whole := positive (x.lastPlace + 1)
    simp only [upperEnd]
    omega
  have low : compareQuarters ⟨0, 0⟩ x.lowerEnd = .eq := by
    rw [compareQuarters_zero, noLower, compare_eq_iff_eq]
  have high : compareQuarters ⟨0, 0⟩ x.upperEnd = .lt := by
    rw [compareQuarters_zero, compare_lt_iff_lt]
    exact upper
  simp [roundsTo, low, high, even]

/-- The shortest decimal of a double rounds to it. -/
theorem roundsTo_shortest (tie : Tie) (x : Binary64) : x.roundsTo (x.shortest tie) = true := by
  rw [shortest]
  split
  · next zero => exact roundsTo_zero zero
  · next nonzero =>
    simp only [roundsTo_stripZeros]
    cases search : (List.range 17).findSome? fun count =>
        x.onGrid? tie (x.decimalScale - (count + 1 : Nat)) with
    | none => exact roundsTo_exactDecimal nonzero
    | some decimal =>
        rcases List.exists_of_findSome?_eq_some search with ⟨count, _, found⟩
        exact roundsTo_of_onGrid? found

end Binary64

end FilterLang
