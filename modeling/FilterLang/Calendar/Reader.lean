import FilterLang.Calendar.Date
import FilterLang.Text.Blank
import FilterLang.Text.Digit

/-!
# Reading dates

A date is read as year, month and day with a hyphen directly after each of the first two. White
space may stand before each number. A signed year may have any number of digits and an unsigned one
at most four; month and day have one digit or two.
-/

namespace FilterLang

namespace Date

/-- Reads a number of at least one and at most `width` digits. -/
def readNumber? (width : Nat) (text : List Char) : Option (Nat × List Char) :=
  let digits := (text.take width).takeWhile Char.isDigit
  if digits.isEmpty then none
  else some (Digit.decimal digits, text.drop digits.length)

/-- Reads a year, after white space. -/
def readYear? (text : List Char) : Option (Int × List Char) :=
  match skipBlank text with
  | '-' :: rest => (readNumber? rest.length rest).map fun (year, rest) => (-(year : Int), rest)
  | '+' :: rest => (readNumber? rest.length rest).map fun (year, rest) => ((year : Int), rest)
  | rest => (readNumber? 4 rest).map fun (year, rest) => ((year : Int), rest)

/-- Reads the date that a text consists of. -/
def read? (text : List Char) : Option Date :=
  match readYear? text with
  | some (year, '-' :: afterYear) =>
    match readNumber? 2 (skipBlank afterYear) with
    | some (month, '-' :: afterMonth) =>
      match readNumber? 2 (skipBlank afterMonth) with
      | some (day, []) => ofYearMonthDay? year month day
      | _ => none
    | _ => none
  | _ => none

end Date

end FilterLang
