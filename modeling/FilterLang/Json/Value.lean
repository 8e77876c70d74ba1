import FilterLang.Number.Binary64

/-!
# JSON values

Whole numbers that fit 64 signed bits are kept apart from the other numbers, and the members of an
object stay in the order in which they were written.
-/

namespace FilterLang

/-- A JSON value. -/
inductive Json where
  | null
  | bool (value : Bool)
  | int (value : Int64)
  | float (value : FiniteNumber)
  | string (value : String)
  | array (items : List Json)
  | object (members : List (String × Json))

end FilterLang
