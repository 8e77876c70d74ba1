import FilterLang.Text.Digit
import FilterLang.Toml.Value

/-!
# TOML numbers

Digits may be grouped by single underscores. Decimal numbers have an optional sign and no
superfluous zeros; integers of base 16, 8 and 2 have a base mark and no sign. A float has a
fraction, a power of ten or both, with digits on either side of its point.

What has the shape of a decimal integer need not be one. After its first underscore it may hold any
characters, as long as what stands right before and right after each underscore looks like a digit.
An integer that does so is misspelled.
-/

namespace FilterLang

namespace Toml

/-- The digits of a group of digits, with single underscores between them taken out. -/
def ungroup? (isDigit : Char → Bool) : List Char → Option (List Char)
  | [] => none
  | [c] => if isDigit c then some [c] else none
  | c :: '_' :: rest => if isDigit c then (ungroup? isDigit rest).map (c :: ·) else none
  | c :: rest => if isDigit c then (ungroup? isDigit rest).map (c :: ·) else none

/-- The digits of a decimal number before its point. -/
def wholeDigits? (text : List Char) : Option (List Char) := do
  let digits ← ungroup? Char.isDigit text
  if digits.head? = some '0' ∧ digits.length ≠ 1 then none else some digits

/-- The sign of a number and the rest of its text. -/
def splitSign : List Char → Bool × List Char
  | '+' :: rest => (false, rest)
  | '-' :: rest => (true, rest)
  | text => (false, text)

/-- Whether a character is a digit in a base of at most sixteen. -/
def isDigitIn (base : Nat) (c : Char) : Bool :=
  match Digit.hexValue? c with
  | some value => value < base
  | none => false

/-- The value of digits in a base of at most sixteen. -/
def valueIn (base : Nat) (digits : List Char) : Nat :=
  digits.foldl (fun n digit => base * n + (Digit.hexValue? digit).getD 0) 0

/-- The integer of a base that a text consists of, after its base mark. -/
def readBased? (base : Nat) (text : List Char) : Option Toml :=
  (ungroup? (isDigitIn base) text).map fun digits => .integer (valueIn base digits)

/-- Whether every underscore of a text stands between two hexadecimal digits, where `inside` says
whether such a digit stands right before the text. -/
def isGrouped (inside : Bool) : List Char → Bool
  | [] => true
  | ['_'] => false
  | '_' :: c :: rest => inside && isDigitIn 16 c && isGrouped true rest
  | c :: rest => isGrouped (isDigitIn 16 c) rest

/-- The decimal integer that a text has the shape of, after its sign. -/
def readInteger? (negative : Bool) (text : List Char) : Option Toml :=
  let digits := text.filter (· != '_')
  if !isGrouped false text then none
  else if digits.head? = some '0' ∧ digits.length ≠ 1 then none
  else if digits.all Char.isDigit then
    let value := (Digit.decimal digits : Int)
    some (.integer (if negative then -value else value))
  else some (.misspelled (String.ofList (if negative then '-' :: digits else digits)))

/-- Whether a character starts a power of ten. -/
def isPowerMark (c : Char) : Bool := c == 'e' || c == 'E'

/-- Reads the power of ten at the end of a float, if there is one. -/
def readPower? : List Char → Option (Option Int)
  | [] => some none
  | mark :: rest =>
    if isPowerMark mark then
      let (negative, digits) := splitSign rest
      (ungroup? Char.isDigit digits).map fun digits =>
        let power := (Digit.decimal digits : Int)
        some (if negative then -power else power)
    else none

/-- The decimal float that a text consists of, after its sign. -/
def readDecimal? (negative : Bool) (text : List Char) : Option WrittenFloat := do
  let whole ← wholeDigits? (text.takeWhile fun c => c != '.' && !isPowerMark c)
  let rest := text.dropWhile fun c => c != '.' && !isPowerMark c
  let (fraction, rest) ←
    match rest with
    | '.' :: rest => do
      let digits ← ungroup? Char.isDigit (rest.takeWhile fun c => !isPowerMark c)
      some (digits, rest.dropWhile fun c => !isPowerMark c)
    | rest => some ([], rest)
  let power ← readPower? rest
  if fraction.isEmpty && power.isNone then none
  else
    some (.decimal negative (Digit.decimal (whole ++ fraction)) (power.getD 0 - fraction.length))

end Toml

end FilterLang
