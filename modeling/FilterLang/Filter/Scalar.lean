import FilterLang.Calendar.Date
import FilterLang.Number.Style
import FilterLang.Text.Quoted

/-!
# Scalars

The leaves of a filter. Scalars of different kinds are never equal: the integer 1 and the float 1.0
are two scalars.
-/

namespace FilterLang

/-- An opaque leaf value. Only a schema interprets it. -/
inductive Scalar where
  | null
  | bool (value : Bool)
  | int (value : Int64)
  | float (value : FiniteNumber)
  | text (value : String)
  | date (value : Date)
  deriving DecidableEq

namespace Scalar

/-- The kind of a scalar, as messages name it. -/
def kind : Scalar → String
  | .null => "null"
  | .bool _ => "bool"
  | .int _ => "int"
  | .float _ => "float"
  | .text _ => "text"
  | .date _ => "date"

/-- The scalar as a double, when it is a number. Integers are rounded to the nearest double. -/
def number? : Scalar → Option Binary64
  | .int value => some (Binary64.ofInt value.toInt)
  | .float value => some value.value
  | _ => none

/-- The text of a scalar, when it is one. -/
def text? : Scalar → Option String
  | .text value => some value
  | _ => none

/-- A scalar as messages show it. -/
def display : Scalar → String
  | .null => "null"
  | .bool value => if value then "true" else "false"
  | .int value => toString value.toInt
  | .float value => NumberStyle.plain.render value.value
  | .text value => quoted value
  | .date value => value.text

end Scalar

end FilterLang
