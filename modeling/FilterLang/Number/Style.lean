import FilterLang.Number.Shortest

/-!
# Writing numbers

A `NumberStyle` holds the decisions that a written double leaves open once its digits are chosen:
where positional notation ends, whether a whole number keeps a point, and which of two equally near
decimals is written.
-/

namespace FilterLang

/-- How doubles are written. -/
structure NumberStyle where
  /-- The exponents of the leading digit that are written positionally; `none` is all of them. -/
  positional : Option (Int × Int)
  /-- Whether a whole number is written with `.0` at the end. -/
  pointZero : Bool
  /-- Which of two equally near decimals is written. -/
  tie : Tie
  /-- The text for bits that stand for no number, whatever their sign. -/
  notANumber : String

namespace NumberStyle

/-- A decimal in positional notation. -/
def positionalText (style : NumberStyle) (decimal : Decimal) : String :=
  let digits := decimalDigits decimal.digits
  if 0 ≤ decimal.exponent then
    let zeros := if decimal.digits = 0 then 0 else decimal.exponent.toNat
    String.ofList (digits ++ List.replicate zeros '0')
      ++ (if style.pointZero then ".0" else "")
  else
    let places := (-decimal.exponent).toNat
    let padded := List.replicate (places + 1 - digits.length) '0' ++ digits
    let whole := padded.length - places
    String.ofList (padded.take whole) ++ "." ++ String.ofList (padded.drop whole)

/-- A decimal as one digit, a point and the others, and a signed power of ten. -/
def scientificText (decimal : Decimal) : String :=
  let digits := decimalDigits decimal.digits
  let leading := decimal.exponent + (digits.length : Int) - 1
  let significand :=
    match digits with
    | [] => ""
    | [digit] => String.ofList [digit]
    | digit :: rest => String.ofList (digit :: '.' :: rest)
  significand ++ (if leading < 0 then "e-" else "e+") ++ toString leading.natAbs

/-- The text of a double. -/
def render (style : NumberStyle) (x : Binary64) : String :=
  let sign := if x.isNegative then "-" else ""
  if x.isNaN then
    style.notANumber
  else if x.isInfinite then
    sign ++ "inf"
  else
    let decimal := x.shortest style.tie
    let leading := decimal.exponent + ((decimalDigits decimal.digits).length : Int) - 1
    let isPositional :=
      match style.positional with
      | none => true
      | some (first, last) => decimal.digits == 0 || (first ≤ leading && leading ≤ last)
    sign ++ (if isPositional then style.positionalText decimal else scientificText decimal)

/-- Numbers in messages are written positionally, whole numbers without a point. -/
def plain : NumberStyle where
  positional := none
  pointZero := false
  tie := .up
  notANumber := "NaN"

end NumberStyle

end FilterLang
