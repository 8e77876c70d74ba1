import FilterLang.Calendar.Date
import FilterLang.Text.Digit

/-!
# Dates and times

A moment is a date, a time of day, or both, and in that case perhaps an offset from universal time.
Seconds and fractions of a second are optional, and of a fraction nine digits are kept.
-/

namespace FilterLang

/-- A time of day. -/
structure TimeOfDay where
  /-- The hour, from 0 to 23. -/
  hour : Nat
  /-- The minute, from 0 to 59. -/
  minute : Nat
  /-- The second, from 0 to 60. -/
  second : Option Nat
  /-- The digits of the fraction of a second. -/
  fraction : Option (List Char)

/-- The distance from universal time. -/
inductive Offset where
  | universal
  | minutes (east : Int)

/-- A date, a time, or both. -/
structure Moment where
  /-- The date. -/
  date : Option Date
  /-- The time. -/
  time : Option TimeOfDay
  /-- The offset of the time. -/
  offset : Option Offset

namespace Moment

/-- Reads exactly `count` decimal digits. -/
def readDigits? (count : Nat) (text : List Char) : Option (Nat × List Char) :=
  let digits := (text.take count).takeWhile Char.isDigit
  if digits.length = count then some (Digit.decimal digits, text.drop count) else none

/-- Reads two numbers of two digits with a character between them. -/
def readPair? (separator : Char) (text : List Char) : Option (Nat × Nat × List Char) := do
  let (first, rest) ← readDigits? 2 text
  match rest with
  | c :: rest =>
    if c = separator then
      let (second, rest) ← readDigits? 2 rest
      some (first, second, rest)
    else none
  | [] => none

/-- Reads a date: a year of four digits, month and day. -/
def readDate? (text : List Char) : Option (Date × List Char) := do
  let (year, rest) ← readDigits? 4 text
  match rest with
  | '-' :: rest =>
    let (month, day, rest) ← readPair? '-' rest
    let date ← Date.ofYearMonthDay? year month day
    some (date, rest)
  | _ => none

/-- Reads the fraction of a second, if there is one. -/
def readFraction? : List Char → Option (Option (List Char) × List Char)
  | '.' :: rest =>
    match rest.takeWhile Char.isDigit with
    | [] => none
    | digits => some (some (digits.take 9), rest.dropWhile Char.isDigit)
  | text => some (none, text)

/-- Reads a time of day. -/
def readTime? (text : List Char) : Option (TimeOfDay × List Char) := do
  let (hour, minute, rest) ← readPair? ':' text
  if 23 < hour ∨ 59 < minute then none
  else
    match rest with
    | ':' :: rest =>
      let (second, rest) ← readDigits? 2 rest
      let (fraction, rest) ← readFraction? rest
      if 60 < second then none else some (⟨hour, minute, some second, fraction⟩, rest)
    | rest => some (⟨hour, minute, none, none⟩, rest)

/-- Reads an offset of hours and minutes. -/
def readOffset? (east : Int → Int) (text : List Char) : Option (Offset × List Char) := do
  let (hour, minute, rest) ← readPair? ':' text
  if 23 < hour ∨ 59 < minute then none
  else some (.minutes (east (60 * hour + minute)), rest)

/-- Reads the end of a moment: an offset or nothing. -/
def readEnd? : List Char → Option (Option Offset)
  | [] => some none
  | ['Z'] => some (some .universal)
  | ['z'] => some (some .universal)
  | '+' :: rest =>
    match readOffset? id rest with
    | some (offset, []) => some (some offset)
    | _ => none
  | '-' :: rest =>
    match readOffset? Neg.neg rest with
    | some (offset, []) => some (some offset)
    | _ => none
  | _ => none

/-- Reads the moment that a text consists of. -/
def read? (text : List Char) : Option Moment :=
  match readDate? text with
  | some (date, []) => some ⟨some date, none, none⟩
  | some (date, separator :: rest) =>
    if separator = 'T' ∨ separator = 't' ∨ separator = ' ' then do
      let (time, rest) ← readTime? rest
      let offset ← readEnd? rest
      some ⟨some date, some time, offset⟩
    else none
  | none =>
    match readTime? text with
    | some (time, []) => some ⟨none, some time, none⟩
    | _ => none

/-- The digits of a fraction without the zeros at the end, but for the last. -/
def fractionChars (digits : List Char) : List Char :=
  match (digits.reverse.dropWhile (· == '0')).reverse with
  | [] => ['0']
  | kept => kept

/-- The characters of a time of day. -/
def timeChars (time : TimeOfDay) : List Char :=
  Date.padded 2 time.hour ++ ':' :: Date.padded 2 time.minute
    ++ (match time.second with
      | some second => ':' :: Date.padded 2 second
      | none => [])
    ++ (match time.fraction with
      | some digits => '.' :: fractionChars digits
      | none => [])

/-- The characters of an offset. -/
def offsetChars : Offset → List Char
  | .universal => ['Z']
  | .minutes east =>
    (if east < 0 then '-' else '+')
      :: (Date.padded 2 (east.natAbs / 60) ++ ':' :: Date.padded 2 (east.natAbs % 60))

/-- The text of a moment. -/
def text (moment : Moment) : String :=
  let date := match moment.date with
    | some date => date.chars
    | none => []
  let separator := if moment.date.isSome && moment.time.isSome then ['T'] else []
  let time := match moment.time with
    | some time => timeChars time
    | none => []
  let offset := match moment.offset with
    | some offset => offsetChars offset
    | none => []
  String.ofList (date ++ separator ++ time ++ offset)

end Moment

end FilterLang
