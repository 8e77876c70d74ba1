/-!
# Double precision numbers

`Binary64` is a 64-bit floating-point number, held as its bits. Every finite one is a whole multiple
of `2 ^ -1074`, and `Binary64.units` is that multiple: it turns comparison into comparison of
integers, with no rounding anywhere. `Binary64.nearest` rounds an exact quotient once, to the
nearest number and on a tie to the one with an even significand.
-/

namespace FilterLang

/-- A double precision number, as its sign bit, 11-bit exponent field and 52-bit fraction. -/
structure Binary64 where
  /-- The sign, exponent field and fraction, from the most significant bit down. -/
  bits : BitVec 64
  deriving DecidableEq

/-- Quotient of two naturals, rounded to the nearest natural and on a tie to the even one. -/
def roundQuotient (numerator denominator : Nat) : Nat :=
  let quotient := numerator / denominator
  let twice := 2 * (numerator % denominator)
  if denominator < twice || (twice == denominator && quotient % 2 == 1) then quotient + 1
  else quotient

namespace Binary64

/-- The exponent field. -/
def exponentField (x : Binary64) : Nat := x.bits.toNat / Nat.pow 2 52 % Nat.pow 2 11

/-- The fraction, without the leading bit that normal numbers leave out. -/
def fraction (x : Binary64) : Nat := x.bits.toNat % Nat.pow 2 52

/-- Whether the sign bit is set. -/
def isNegative (x : Binary64) : Bool := x.bits.msb

/-- Whether the bits stand for no number. -/
def isNaN (x : Binary64) : Bool := x.exponentField == 2047 && x.fraction != 0

/-- Whether the bits stand for an infinity. -/
def isInfinite (x : Binary64) : Bool := x.exponentField == 2047 && x.fraction == 0

/-- Whether the bits stand for a number. -/
def isFinite (x : Binary64) : Bool := x.exponentField != 2047

/-- The significand as a natural, with its leading bit. -/
def significand (x : Binary64) : Nat :=
  if x.exponentField = 0 then x.fraction else Nat.pow 2 52 + x.fraction

/-- The binary exponent of the last place of the significand, counted from `2 ^ -1074`. -/
def lastPlace (x : Binary64) : Nat := x.exponentField - 1

/-- The absolute value, in units of `2 ^ -1074`. -/
def magnitude (x : Binary64) : Nat := x.significand * Nat.pow 2 x.lastPlace

/-- The exact value, in units of `2 ^ -1074`. An infinity lies beyond every finite value. -/
def units (x : Binary64) : Int :=
  if x.isNegative then -(x.magnitude : Int) else x.magnitude

/-- Strict order by value: nothing compares with a NaN and the two zeros are equal. -/
def lt (x y : Binary64) : Bool :=
  !x.isNaN && !y.isNaN && decide (x.units < y.units)

/-- The number with a given sign whose remaining bits are given, infinity at the most. -/
def ofSigned (negative : Bool) (magnitudeBits : Nat) : Binary64 :=
  let sign := if negative then Nat.pow 2 63 else 0
  ⟨BitVec.ofNat 64 (sign + min magnitudeBits (2047 * Nat.pow 2 52))⟩

/-- The double nearest to a signed quotient. A quotient too large for the format gives infinity,
and a quotient that rounds to nothing gives the zero of its sign.

In units of `2 ^ -1074` the quotient is scaled down by the power of two that leaves 53 bits, and
rounded; a carry out of those bits moves into the exponent field by itself. -/
def nearest (negative : Bool) (numerator denominator : Nat) : Binary64 :=
  let scaled := numerator * Nat.pow 2 1074
  let shift := (scaled / denominator).log2 - 52
  ofSigned negative (shift * Nat.pow 2 52 + roundQuotient scaled (denominator * Nat.pow 2 shift))

/-- The double nearest to an integer. -/
def ofInt (value : Int) : Binary64 := nearest (value < 0) value.natAbs 1

/-- The number with the opposite sign. -/
def neg (x : Binary64) : Binary64 := ⟨x.bits ^^^ BitVec.twoPow 64 63⟩

end Binary64

/-- A finite double in which zero carries no sign, so that equal values have equal bits. -/
structure FiniteNumber where
  /-- The number itself. -/
  value : Binary64
  /-- The number is neither infinite nor a NaN. -/
  finite : value.isFinite = true
  /-- The number is not the negative zero. -/
  unsignedZero : value.bits ≠ BitVec.twoPow 64 63
  deriving DecidableEq

namespace FiniteNumber

/-- The finite number with the value of a double, if it has one. The two zeros become one. -/
def ofBinary64? (x : Binary64) : Option FiniteNumber :=
  if signedZero : x.bits = BitVec.twoPow 64 63 then
    some ⟨⟨0⟩, by decide, by decide⟩
  else if finite : x.isFinite = true then
    some ⟨x, finite, signedZero⟩
  else
    none

end FiniteNumber

end FilterLang
