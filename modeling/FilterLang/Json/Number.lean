import FilterLang.Json.Value
import FilterLang.Number.Scaling
import FilterLang.Text.Digit

/-!
# Reading JSON numbers

A number is an optional sign, a whole part without superfluous zeros, and optional fraction and
power of ten. A number with neither fraction nor power is an integer if it fits 64 signed bits;
every other number, minus zero among them, is a float. Of the digits as many count as fit 64
unsigned bits. A number too large for a double cannot be read.
-/

namespace FilterLang

namespace Json

/-- Appends digits to a significand while it fits 64 bits, and counts the digits left over. -/
def absorbDigits (significand : Nat) : List Char → Nat × Nat
  | [] => (significand, 0)
  | digit :: rest =>
    if significand * 10 + Digit.value digit < UInt64.size then
      absorbDigits (significand * 10 + Digit.value digit) rest
    else
      (significand, rest.length + 1)

/-- The float with a given sign and absolute value. -/
def signedFloat? (negative : Bool) (x : Binary64) : Option Json :=
  (FiniteNumber.ofBinary64? (if negative then x.neg else x)).map .float

/-- The value of a number with neither fraction nor power of ten. -/
def wholeNumber? (negative : Bool) (digits : List Char) : Option Json :=
  match absorbDigits 0 digits with
  | (significand, 0) =>
    if negative then
      if 0 < significand ∧ significand ≤ Nat.pow 2 63 then
        some (.int (Int64.ofInt (-(significand : Int))))
      else
        signedFloat? true (Binary64.nearest false significand 1)
    else if significand < Nat.pow 2 63 then
      some (.int (Int64.ofInt significand))
    else
      signedFloat? false (Binary64.nearest false significand 1)
  | (significand, dropped) =>
    (Binary64.scaled? significand dropped).bind (signedFloat? negative)

/-- The value of a number with a fraction or a power of ten. -/
def scaledNumber? (negative : Bool) (whole fraction : List Char) (power : Int) : Option Json :=
  let (significand, dropped) := absorbDigits 0 whole
  let (significand, ignored) := absorbDigits significand fraction
  let exponent := (dropped : Int) - ((fraction.length - ignored : Nat) : Int) + power
  (Binary64.scaled? significand exponent).bind (signedFloat? negative)

/-- Reads the fraction of a number, if there is one. -/
def readFraction? : List Char → Option (Option (List Char) × List Char)
  | '.' :: rest =>
    match rest.takeWhile Char.isDigit with
    | [] => none
    | digits => some (some digits, rest.dropWhile Char.isDigit)
  | text => some (none, text)

/-- Reads the digits of a power of ten. -/
def readPowerDigits? (negative : Bool) (text : List Char) : Option (Option Int × List Char) :=
  match text.takeWhile Char.isDigit with
  | [] => none
  | digits =>
    let power := (Digit.decimal digits : Int)
    some (some (if negative then -power else power), text.dropWhile Char.isDigit)

/-- Reads the power of ten of a number, if there is one. -/
def readPower? : List Char → Option (Option Int × List Char)
  | c :: rest =>
    if c = 'e' ∨ c = 'E' then
      match rest with
      | '+' :: digits => readPowerDigits? false digits
      | '-' :: digits => readPowerDigits? true digits
      | digits => readPowerDigits? false digits
    else
      some (none, c :: rest)
  | [] => some (none, [])

/-- Reads a number after its sign. -/
def readUnsigned? (negative : Bool) (text : List Char) : Option (Json × List Char) := do
  let whole := text.takeWhile Char.isDigit
  if whole.isEmpty || (whole.head? == some '0' && whole.length ≠ 1) then none
  else
    let (fraction, rest) ← readFraction? (text.dropWhile Char.isDigit)
    let (power, rest) ← readPower? rest
    let value ←
      match fraction, power with
      | none, none => wholeNumber? negative whole
      | _, _ => scaledNumber? negative whole (fraction.getD []) (power.getD 0)
    some (value, rest)

/-- Reads a number. -/
def readNumber? : List Char → Option (Json × List Char)
  | '-' :: rest => readUnsigned? true rest
  | text => readUnsigned? false text

end Json

end FilterLang
