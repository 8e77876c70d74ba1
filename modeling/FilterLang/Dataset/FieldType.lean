import FilterLang.Calendar.Reader
import FilterLang.Filter.Scalar

/-!
# Field types

The type of a field decides which scalars a filter may compare it with.
-/

namespace FilterLang

/-- The type of a field, in alphabetical order of the names. -/
inductive FieldType where
  | any
  | bool
  | date
  | float
  | int
  | number
  | text
  deriving DecidableEq

namespace FieldType

/-- Every field type. -/
def all : List FieldType := [.any, .bool, .date, .float, .int, .number, .text]

/-- The name of a field type. -/
def name : FieldType → String
  | .any => "any"
  | .bool => "bool"
  | .date => "date"
  | .float => "float"
  | .int => "int"
  | .number => "number"
  | .text => "text"

/-- The field type with a given name. -/
def ofName? (name : String) : Option FieldType := all.find? fun type => type.name == name

/-- Whether a scalar may stand for a value of a type. Fields of floats take integers, fields of
dates take text that reads as a date, and only fields of any type take null. -/
def accepts : FieldType → Scalar → Bool
  | .any, _ => true
  | .bool, .bool _ => true
  | .int, .int _ => true
  | .float, .int _ => true
  | .float, .float _ => true
  | .number, .int _ => true
  | .number, .float _ => true
  | .text, .text _ => true
  | .date, .date _ => true
  | .date, .text value => (Date.read? value.toList).isSome
  | _, _ => false

/-- Whether numeric bounds make sense for a type. -/
def isNumeric : FieldType → Bool
  | .float | .int | .number => true
  | _ => false

end FieldType

end FilterLang
