import FilterLang.Filter.Node
import FilterLang.Json.Printer
import FilterLang.Json.Reader
import FilterLang.Text.Blank

/-!
# The text of a filter

A filter is written and read as JSON. Objects are mappings and arrays are sequences, which `parse?`
lifts into multisets. Dates are written as strings and are not told apart from them when read.
-/

namespace FilterLang

/-- The JSON value of a scalar. -/
def Scalar.toJson : Scalar → Json
  | .null => .null
  | .bool value => .bool value
  | .int value => .int value
  | .float value => .float value
  | .text value => .string value
  | .date value => .string value.text

namespace Node

mutual

/-- The JSON value of a tree. Multisets and sequences are arrays. -/
def toJson : Node → Json
  | .scalar value => value.toJson
  | .mapping entries => .object (jsonMembers entries)
  | .multiset elements => .array (jsonItems elements)
  | .sequence items => .array (jsonItems items)
termination_by structural node => node

/-- The members of the object that a mapping is written as. -/
def jsonMembers : Entries → List (String × Json)
  | [] => []
  | (key, value) :: rest => (key.name, toJson value) :: jsonMembers rest
termination_by structural entries => entries

/-- The items of the array that a list of trees is written as. -/
def jsonItems : List Node → List Json
  | [] => []
  | node :: rest => toJson node :: jsonItems rest
termination_by structural nodes => nodes

end

/-- The text of a tree, without white space. -/
def text (node : Node) : String := node.toJson.compact

mutual

/-- The tree of a JSON value. A member whose name came before replaces the earlier value. -/
def ofJson : Json → Node
  | .null => .scalar .null
  | .bool value => .scalar (.bool value)
  | .int value => .scalar (.int value)
  | .float value => .scalar (.float value)
  | .string value => .scalar (.text value)
  | .array items => .sequence (ofJsonItems items)
  | .object members => .mapping (Entries.ofList (ofJsonMembers members))
termination_by structural value => value

/-- The trees of the items of an array. -/
def ofJsonItems : List Json → List Node
  | [] => []
  | item :: rest => ofJson item :: ofJsonItems rest
termination_by structural items => items

/-- The keys and trees of the members of an object. -/
def ofJsonMembers : List (String × Json) → List (Key × Node)
  | [] => []
  | (name, value) :: rest => (Key.ofName name, ofJson value) :: ofJsonMembers rest
termination_by structural members => members

end

/-- Reads filter text, keeping arrays as sequences. Blank text and `null` are the empty filter. -/
def parseRaw? (text : String) : Option Node :=
  if text.toList.all isBlank then some .empty
  else
    (Json.read? text).map fun value =>
      match value with
      | .null => .empty
      | value => ofJson value

/-- Reads filter text. The result holds no sequence. -/
def parse? (text : String) : Option Node := (parseRaw? text).map lift

end Node

end FilterLang
