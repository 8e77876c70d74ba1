import FilterLang.Number.Binary64

/-!
# TOML floats

A float is kept as it is written, so that a document may hold floats beyond every double. What uses
a float rounds it to the nearest double, and has none to use when the float lies beyond them.
-/

namespace FilterLang

/-- A float as it is written. -/
inductive WrittenFloat where
  | infinity (negative : Bool)
  | notANumber
  /-- A significand times a power of ten. -/
  | decimal (negative : Bool) (significand : Nat) (power : Int)

namespace WrittenFloat

/-- The bits that stand for infinity. -/
def infiniteBits (negative : Bool) : Binary64 := Binary64.ofSigned negative (2047 * Nat.pow 2 52)

/-- The bits that stand for no number. -/
def nanBits : Binary64 := ⟨BitVec.ofNat 64 (2047 * Nat.pow 2 52 + Nat.pow 2 51)⟩

/-- The double nearest to a significand times a power of ten. A value far beyond the format is
infinite, and one far below it is zero, without being computed. -/
def nearestDecimal (negative : Bool) (significand : Nat) (power : Int) : Binary64 :=
  let leading := ((Nat.toDigits 10 significand).length : Int) + power
  if significand = 0 ∨ leading < -400 then Binary64.ofSigned negative 0
  else if 400 < leading then infiniteBits negative
  else Binary64.nearest negative (significand * Nat.pow 10 power.toNat) (Nat.pow 10 (-power).toNat)

/-- The double nearest to a float. -/
def nearest : WrittenFloat → Binary64
  | .infinity negative => infiniteBits negative
  | .notANumber => nanBits
  | .decimal negative significand power => nearestDecimal negative significand power

/-- Whether a float is a decimal beyond every double. -/
def isBeyond : WrittenFloat → Bool
  | .decimal negative significand power => (nearestDecimal negative significand power).isInfinite
  | _ => false

/-- The double that a float is used as. -/
def value? (float : WrittenFloat) : Option Binary64 :=
  if float.isBeyond then none else some float.nearest

end WrittenFloat

end FilterLang
