import FilterLang.Table
import FilterLang.Toml.Document

/-!
# Configurations

A configuration defines datasets and says which of them is the default. `Config.parse?` reads one
from a TOML document. The document may hold no key that means nothing, and every key that may be
left out has a default. A definition may also be written as an array, which gives its values by
position.
-/

namespace FilterLang

/-- The definition of a field. -/
structure FieldConfig where
  /-- The name of the type. -/
  type : String
  /-- The names of the admitted comparisons; `none` is all of them. -/
  operators : Option (List String)
  /-- The admitted values; an empty list admits all. -/
  oneOf : List Toml
  /-- The least number. -/
  min : Option Binary64
  /-- The greatest number. -/
  max : Option Binary64
  /-- The least number of characters. -/
  minLength : Option Nat
  /-- The greatest number of characters. -/
  maxLength : Option Nat

/-- The definition of a dataset. -/
structure DatasetConfig where
  /-- The names of the foreign datasets. -/
  foreigns : List String
  /-- The names of the admitted operators; `none` is the whole vocabulary. -/
  operators : Option (List String)
  /-- The fields. -/
  fields : Table FieldConfig

/-- The definition of a registry. -/
structure Config where
  /-- The name of the default dataset; without it the first dataset by name is the default. -/
  default? : Option String
  /-- The datasets. -/
  datasets : Table DatasetConfig

namespace Config

/-- The value of a string. -/
def string? : Toml → Option String
  | .string value => some value
  | _ => none

/-- The double that a number is used as. Integers have to fit 64 bits, signed or unsigned. -/
def number? : Toml → Option Binary64
  | .integer value =>
    if Int64.minValue.toInt ≤ value ∧ value < UInt64.size then some (Binary64.ofInt value) else none
  | .float value => value.value?
  | _ => none

/-- The value of a natural of 64 bits. -/
def length? : Toml → Option Nat
  | .integer value => if 0 ≤ value ∧ value < UInt64.size then some value.toNat else none
  | _ => none

/-- The strings of an array. -/
def strings? : Toml → Option (List String)
  | .array items => items.mapM string?
  | _ => none

/-- The key under which a table holds the text of a date or time that it stands for. -/
def momentKey : String := "$__toml_private_datetime"

/-- The date or time that a value is the text of. -/
def moment? : Toml → Option Toml
  | .string text => (Moment.read? text.toList).map .moment
  | _ => none

mutual

/-- A value as it is admitted. Integers have to be spelled as such and to fit 64 signed bits, and
floats have to fit the doubles. A table whose first key is `momentKey` is the date or time that
stands there, whatever else it holds. -/
def admitted? : Toml → Option Toml
  | .integer value =>
    if Int64.minValue.toInt ≤ value ∧ value ≤ Int64.maxValue.toInt then some (.integer value)
    else none
  | .misspelled _ => none
  | .float value => value.value?.map fun _ => .float value
  | .array items => (admittedItems? items).map .array
  | .table entries => admittedTable? entries
  | value => some value
termination_by structural value => value

/-- The items of an array as they are admitted. -/
def admittedItems? : List Toml → Option (List Toml)
  | [] => some []
  | item :: rest => do
    let item ← admitted? item
    let rest ← admittedItems? rest
    some (item :: rest)
termination_by structural items => items

/-- A table as it is admitted. -/
def admittedTable? : List (String × Toml) → Option Toml
  | [] => some (.table [])
  | (key, value) :: rest =>
    if key = momentKey then moment? value
    else do
      let value ← admitted? value
      let rest ← admittedEntries? rest
      some (.table ((key, value) :: rest))
termination_by structural entries => entries

/-- The entries of a table as they are admitted. -/
def admittedEntries? : List (String × Toml) → Option (List (String × Toml))
  | [] => some []
  | (key, value) :: rest => do
    let value ← admitted? value
    let rest ← admittedEntries? rest
    some ((key, value) :: rest)
termination_by structural entries => entries

end

/-- The admitted values of an array. -/
def values? : Toml → Option (List Toml)
  | .array items => admittedItems? items
  | _ => none

/-- The parts of a definition whose keys are given: of a table by name, of an array by position.
A table with another key is no definition. What an array holds beyond the last key is ignored. -/
def parts? (keys : List String) : Toml → Option (List (String × Toml))
  | .table entries => if entries.all fun entry => keys.contains entry.1 then some entries else none
  | .array items => some (keys.zip items)
  | _ => none

/-- The part of a definition with a given key, if it is there. -/
def part? {α : Type} (read? : Toml → Option α) (key : String) (parts : List (String × Toml)) :
    Option (Option α) :=
  match parts.lookup key with
  | some value => (read? value).map some
  | none => some none

/-- The table in which every value is a definition. -/
def table? {α : Type} (read? : Toml → Option α) : Toml → Option (Table α)
  | .table entries => do
    let bindings ← entries.mapM fun (key, value) => (read? value).map fun value => (key, value)
    some (Table.ofList bindings)
  | _ => none

/-- The definition of a field. -/
def field? (value : Toml) : Option FieldConfig := do
  let parts ← parts? ["type", "operators", "one_of", "min", "max", "min_len", "max_len"] value
  some
    { type := (← part? string? "type" parts).getD "any"
      operators := ← part? strings? "operators" parts
      oneOf := (← part? values? "one_of" parts).getD []
      min := ← part? number? "min" parts
      max := ← part? number? "max" parts
      minLength := ← part? length? "min_len" parts
      maxLength := ← part? length? "max_len" parts }

/-- The definition of a dataset. -/
def dataset? (value : Toml) : Option DatasetConfig := do
  let parts ← parts? ["foreigns", "operators", "fields"] value
  some
    { foreigns := (← part? strings? "foreigns" parts).getD []
      operators := ← part? strings? "operators" parts
      fields := (← part? (table? field?) "fields" parts).getD .empty }

/-- The configuration that a document defines. -/
def ofDocument? (document : List (String × Toml)) : Option Config := do
  let parts ← parts? ["default", "datasets"] (.table document)
  some
    { default? := ← part? string? "default" parts
      datasets := (← part? (table? dataset?) "datasets" parts).getD .empty }

/-- Reads a configuration. -/
def parse? (text : String) : Option Config := do ofDocument? (← Toml.read? text)

end Config

end FilterLang
