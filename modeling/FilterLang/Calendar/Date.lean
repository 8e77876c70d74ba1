/-!
# Calendar dates

Days of the proleptic Gregorian calendar in the years -262143 to 262142.
-/

namespace FilterLang

namespace Calendar

/-- Whether a year has a 29th of February. -/
def isLeap (year : Int) : Bool :=
  year % 4 == 0 && (year % 100 != 0 || year % 400 == 0)

/-- The number of days in a month, zero for a number that is no month. -/
def monthLength (year : Int) (month : Nat) : Nat :=
  match month with
  | 1 | 3 | 5 | 7 | 8 | 10 | 12 => 31
  | 4 | 6 | 9 | 11 => 30
  | 2 => if isLeap year then 29 else 28
  | _ => 0

/-- Whether three numbers name a day of the calendar. -/
def hasDay (year : Int) (month day : Nat) : Bool :=
  -262143 ≤ year && year ≤ 262142 && 1 ≤ day && day ≤ monthLength year month

end Calendar

/-- A day of the calendar. -/
structure Date where
  /-- The year, counted astronomically: the year before 1 is 0. -/
  year : Int
  /-- The month, from 1. -/
  month : Nat
  /-- The day of the month, from 1. -/
  day : Nat
  /-- The calendar has this day. -/
  exists_day : Calendar.hasDay year month day = true
  deriving DecidableEq

namespace Date

/-- The day that three numbers name, if the calendar has it. -/
def ofYearMonthDay? (year : Int) (month day : Nat) : Option Date :=
  if exists_day : Calendar.hasDay year month day = true then some ⟨year, month, day, exists_day⟩
  else none

/-- A natural in at least `width` digits. -/
def padded (width n : Nat) : List Char :=
  let digits := Nat.toDigits 10 n
  List.replicate (width - digits.length) '0' ++ digits

/-- The text of a year: four digits at least, signed outside 0 to 9999. -/
def yearText (year : Int) : List Char :=
  if year < 0 then '-' :: padded 4 year.natAbs
  else if 9999 < year then '+' :: padded 4 year.natAbs
  else padded 4 year.natAbs

/-- The characters of a date, as year, month and day with hyphens between them. -/
def chars (date : Date) : List Char :=
  yearText date.year ++ '-' :: (padded 2 date.month ++ '-' :: padded 2 date.day)

/-- The text of a date. -/
def text (date : Date) : String := String.ofList date.chars

end Date

end FilterLang
