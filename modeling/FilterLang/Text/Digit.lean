/-!
# Digits

The values of decimal and hexadecimal digits.
-/

namespace FilterLang

namespace Digit

/-- The value of a decimal digit. -/
def value (c : Char) : Nat := c.toNat - '0'.toNat

/-- The value of a list of decimal digits. -/
def decimal (digits : List Char) : Nat := digits.foldl (fun n digit => 10 * n + value digit) 0

/-- The value of a hexadecimal digit. -/
def hexValue? (c : Char) : Option Nat :=
  if '0' ≤ c ∧ c ≤ '9' then some (c.toNat - 48)
  else if 'a' ≤ c ∧ c ≤ 'f' then some (c.toNat - 87)
  else if 'A' ≤ c ∧ c ≤ 'F' then some (c.toNat - 55)
  else none

/-- The value of a list of hexadecimal digits. -/
def hexadecimal? (digits : List Char) : Option Nat :=
  digits.foldlM (fun n digit => (hexValue? digit).map (16 * n + ·)) 0

end Digit

end FilterLang
