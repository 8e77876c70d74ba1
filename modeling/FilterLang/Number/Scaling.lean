import FilterLang.Number.Binary64

/-!
# Scaling by powers of ten

Products and quotients of doubles are exact results rounded once. `Binary64.scaled?` reads a
significand and a power of ten in two steps: the significand is rounded, and then multiplied or
divided by the power. The two roundings can differ from rounding the exact value once.
-/

namespace FilterLang

namespace Binary64

/-- The product of two finite doubles. -/
def mul (x y : Binary64) : Binary64 :=
  nearest (x.isNegative != y.isNegative) (x.magnitude * y.magnitude) (Nat.pow 2 2148)

/-- The quotient of two finite doubles of which the second is not zero. -/
def div (x y : Binary64) : Binary64 :=
  nearest (x.isNegative != y.isNegative) x.magnitude y.magnitude

/-- The double nearest to a power of ten. -/
def powerOfTen (exponent : Nat) : Binary64 := nearest false (Nat.pow 10 exponent) 1

/-- Divides by a power of ten. A power beyond the format is taken in steps of `10 ^ 308`. -/
def divPowerOfTen (x : Binary64) (exponent : Nat) : Binary64 :=
  if exponent ≤ 308 then x.div (powerOfTen exponent)
  else if x.magnitude = 0 then x
  else divPowerOfTen (x.div (powerOfTen 308)) (exponent - 308)
termination_by exponent

/-- A significand times a power of ten, unless the result is too large for the format. -/
def scaled? (significand : Nat) (exponent : Int) : Option Binary64 :=
  let x := nearest false significand 1
  match exponent with
  | .ofNat power =>
    if x.magnitude = 0 then some x
    else if 308 < power then none
    else
      let product := x.mul (powerOfTen power)
      if product.isInfinite then none else some product
  | .negSucc power => some (x.divPowerOfTen (power + 1))

end Binary64

end FilterLang
