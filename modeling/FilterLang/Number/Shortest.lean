import FilterLang.Number.Binary64

/-!
# Shortest decimals

`Binary64.shortest` is the decimal with the fewest digits among those that round to a given double,
and of these the one nearest to it. The reals that round to a double form an interval whose ends lie
halfway to its neighbours; the ends belong to it exactly when the significand is even. For one, two,
three … digits the search tests the two neighbours of the double on that decimal grid.
-/

namespace FilterLang

/-- Which of two equally near decimals is taken. -/
inductive Tie where
  /-- The one with an even last digit. -/
  | even
  /-- The larger one. -/
  | up
  deriving DecidableEq

/-- A non-negative decimal: `digits` times ten to the power `exponent`. -/
structure Decimal where
  /-- The digits, read as a natural. -/
  digits : Nat
  /-- The power of ten of the last digit. -/
  exponent : Int
  deriving DecidableEq

/-- The decimal digits of a natural. -/
def decimalDigits (n : Nat) : List Char := Nat.toDigits 10 n

namespace Decimal

/-- Moves zeros at the end of the digits into the exponent. -/
def stripZeros (fuel : Nat) (decimal : Decimal) : Decimal :=
  match fuel with
  | 0 => decimal
  | fuel + 1 =>
    if decimal.digits ≠ 0 ∧ decimal.digits % 10 = 0 then
      stripZeros fuel ⟨decimal.digits / 10, decimal.exponent + 1⟩
    else
      decimal

end Decimal

namespace Binary64

/-- Whether the double below is only half as far away as the double above. -/
def isNarrowBelow (x : Binary64) : Bool := x.fraction == 0 && x.exponentField > 1

/-- The lower end of the rounding interval of the absolute value, in quarters of `2 ^ -1074`. -/
def lowerEnd (x : Binary64) : Nat :=
  4 * x.magnitude - (if x.isNarrowBelow then Nat.pow 2 x.lastPlace else Nat.pow 2 (x.lastPlace + 1))

/-- The upper end of the rounding interval of the absolute value, in quarters of `2 ^ -1074`. -/
def upperEnd (x : Binary64) : Nat := 4 * x.magnitude + Nat.pow 2 (x.lastPlace + 1)

/-- Compares a decimal with a number of quarters of `2 ^ -1074`. -/
def compareQuarters (decimal : Decimal) (quarters : Nat) : Ordering :=
  compare (decimal.digits * Nat.pow 10 decimal.exponent.toNat * Nat.pow 2 1076)
    (quarters * Nat.pow 10 (-decimal.exponent).toNat)

/-- Whether a decimal rounds to the absolute value of a double. -/
def roundsTo (x : Binary64) (decimal : Decimal) : Bool :=
  let endsIncluded := x.significand % 2 == 0
  let low := compareQuarters decimal x.lowerEnd
  let high := compareQuarters decimal x.upperEnd
  (low == .gt || (endsIncluded && low == .eq)) && (high == .lt || (endsIncluded && high == .eq))

/-- The least power of ten above the absolute value of a double other than zero. -/
def decimalScale (x : Binary64) : Int :=
  if Nat.pow 2 1074 ≤ x.magnitude then
    (decimalDigits (x.magnitude / Nat.pow 2 1074)).length
  else
    1 - ((decimalDigits ((Nat.pow 2 1074 - 1) / x.magnitude)).length : Int)

/-- The one of two decimals that rounds to a double; if both do, it is as wished. -/
def choose? (belowRounds aboveRounds takesAbove : Bool) (below above : Decimal) : Option Decimal :=
  match belowRounds, aboveRounds with
  | true, true => some (if takesAbove then above else below)
  | true, false => some below
  | false, true => some above
  | false, false => none

/-- The decimal with digits on the grid `10 ^ exponent` that rounds to a double and is nearest. -/
def onGrid? (tie : Tie) (x : Binary64) (exponent : Int) : Option Decimal :=
  let numerator := x.magnitude * Nat.pow 10 (-exponent).toNat
  let denominator := Nat.pow 2 1074 * Nat.pow 10 exponent.toNat
  let below : Decimal := ⟨numerator / denominator, exponent⟩
  let above : Decimal := ⟨numerator / denominator + 1, exponent⟩
  let remainder := 2 * (numerator % denominator)
  let takesAbove :=
    match compare remainder denominator with
    | .lt => false
    | .gt => true
    | .eq => match tie with
      | .up => true
      | .even => below.digits % 2 == 1
  choose? (x.roundsTo below) (x.roundsTo above) takesAbove below above

/-- The absolute value of a double, written out in full. -/
def exactDecimal (x : Binary64) : Decimal := ⟨x.magnitude * Nat.pow 5 1074, -1074⟩

/-- The shortest decimal that rounds to the absolute value of a finite double, and of the shortest
ones the nearest. Seventeen digits always suffice. -/
def shortest (tie : Tie) (x : Binary64) : Decimal :=
  if x.magnitude = 0 then ⟨0, 0⟩
  else
    let found := (List.range 17).findSome? fun count =>
      x.onGrid? tie (x.decimalScale - (count + 1 : Nat))
    (found.getD x.exactDecimal).stripZeros 1100

end Binary64

end FilterLang
