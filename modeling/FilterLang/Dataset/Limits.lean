import FilterLang.Filter.Scalar

/-!
# Limits

The limits of a field restrict its values beyond their type: to a list of values, to an interval of
numbers, to a range of text lengths. Each limit that a value exceeds is a violation of its own.
-/

namespace FilterLang

/-- Restrictions on the values of a field. -/
structure Limits where
  /-- The least number. -/
  min : Option Binary64
  /-- The greatest number. -/
  max : Option Binary64
  /-- The least number of characters in a text. -/
  minLength : Option Nat
  /-- The greatest number of characters in a text. -/
  maxLength : Option Nat
  /-- The admitted values; an empty list admits all. -/
  oneOf : List Scalar

/-- The limit that a value exceeds. -/
inductive Violation where
  | unlisted (admitted : List Scalar)
  | belowMinimum (min : Binary64)
  | aboveMaximum (max : Binary64)
  | tooShort (minLength : Nat)
  | tooLong (maxLength : Nat)

/-- What is wrong with a value. -/
def Violation.text : Violation → String
  | .unlisted admitted =>
    "is not one of [" ++ ", ".intercalate (admitted.map Scalar.display) ++ "]"
  | .belowMinimum min => "is below minimum " ++ NumberStyle.plain.render min
  | .aboveMaximum max => "is above maximum " ++ NumberStyle.plain.render max
  | .tooShort minLength => "is shorter than " ++ toString minLength ++ " characters"
  | .tooLong maxLength => "is longer than " ++ toString maxLength ++ " characters"

namespace Limits

/-- The limits that every value keeps. -/
def none : Limits := ⟨.none, .none, .none, .none, []⟩

/-- Whether two scalars are the same value. Numbers are compared as doubles, so that an integer may
be the same value as a float. -/
def sameValue (first second : Scalar) : Bool :=
  match first.number?, second.number? with
  | some first, some second => first == second
  | _, _ => first == second

/-- The violation of the list of admitted values. -/
def listViolation? (limits : Limits) (value : Scalar) : Option Violation :=
  if limits.oneOf.isEmpty || limits.oneOf.any fun admitted => sameValue admitted value then .none
  else some (.unlisted limits.oneOf)

/-- The violation of the least number. -/
def minViolation? (limits : Limits) (value : Scalar) : Option Violation := do
  let number ← value.number?
  let min ← limits.min
  if number.lt min then some (.belowMinimum min) else .none

/-- The violation of the greatest number. -/
def maxViolation? (limits : Limits) (value : Scalar) : Option Violation := do
  let number ← value.number?
  let max ← limits.max
  if max.lt number then some (.aboveMaximum max) else .none

/-- The violation of the least length. -/
def minLengthViolation? (limits : Limits) (value : Scalar) : Option Violation := do
  let text ← value.text?
  let minLength ← limits.minLength
  if text.length < minLength then some (.tooShort minLength) else .none

/-- The violation of the greatest length. -/
def maxLengthViolation? (limits : Limits) (value : Scalar) : Option Violation := do
  let text ← value.text?
  let maxLength ← limits.maxLength
  if maxLength < text.length then some (.tooLong maxLength) else .none

/-- Every limit that a value exceeds. -/
def violations (limits : Limits) (value : Scalar) : List Violation :=
  [limits.listViolation? value, limits.minViolation? value, limits.maxViolation? value,
    limits.minLengthViolation? value, limits.maxLengthViolation? value].filterMap id

end Limits

end FilterLang
