import FilterLang.Toml.Moment
import FilterLang.Toml.WrittenFloat

/-!
# TOML values

The keys of a table are in ascending order, each once. Numbers are kept as they are written, however
large; what reads them decides how large they may be. Nor does it hurt a document that an integer
has no digits, or others than its base has, as long as nothing reads that integer.
-/

namespace FilterLang

/-- A TOML value. -/
inductive Toml where
  | string (value : String)
  | integer (value : Int)
  /-- What has the shape of an integer, but not the digits of one. -/
  | misspelled (text : String)
  | float (value : WrittenFloat)
  | boolean (value : Bool)
  | moment (value : Moment)
  | array (items : List Toml)
  | table (entries : List (String × Toml))

end FilterLang
