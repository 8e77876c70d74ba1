import FilterLang.Config.Definition
import FilterLang.Dataset.Registry
import FilterLang.Toml.Printer

/-!
# Compiling configurations

A configuration is compiled into a registry: names are resolved, limits are checked against the type
of their field, and every dataset has to have a view. Datasets and their fields are compiled in the
order of their names, and the first fault ends the compilation.
-/

namespace FilterLang

/-- Why the limits of a field are refused. -/
inductive LimitsFault where
  | numericBounds (type : FieldType)
  | lengthBounds (type : FieldType)
  | minAboveMax (min max : Binary64)
  | minLengthAboveMax (minLength maxLength : Nat)
  | notScalar (value : Toml)

/-- The text of a refusal of limits. -/
def LimitsFault.text : LimitsFault → String
  | .numericBounds type => "numeric bounds on a " ++ type.name ++ " field"
  | .lengthBounds type => "length bounds on a " ++ type.name ++ " field"
  | .minAboveMax min max =>
    "min " ++ NumberStyle.plain.render min ++ " is greater than max "
      ++ NumberStyle.plain.render max
  | .minLengthAboveMax minLength maxLength =>
    "min_len " ++ toString minLength ++ " is greater than max_len " ++ toString maxLength
  | .notScalar value => "one_of entry " ++ value.text ++ " is not a scalar"

/-- Why a configuration cannot be compiled. -/
inductive ConfigError where
  | unknownFieldType (dataset field type : String)
  | unknownOperator (dataset op : String)
  | emptyFieldName (dataset : String)
  | operatorFieldName (dataset field : String)
  | limits (dataset field : String) (fault : LimitsFault)
  | registry (error : RegistryError)

/-- The text of a configuration error. -/
def ConfigError.message : ConfigError → String
  | .unknownFieldType dataset field type =>
    "dataset '" ++ dataset ++ "': field '" ++ field ++ "' has unknown type '" ++ type ++ "'"
  | .unknownOperator dataset op =>
    "dataset '" ++ dataset ++ "': unknown operator '" ++ op ++ "'"
  | .emptyFieldName dataset =>
    "dataset '" ++ dataset ++ "': invalid field name '': field name is empty"
  | .operatorFieldName dataset field =>
    "dataset '" ++ dataset ++ "': invalid field name '" ++ field
      ++ "': field name spells an operator"
  | .limits dataset field fault =>
    "dataset '" ++ dataset ++ "': field '" ++ field ++ "': " ++ fault.text
  | .registry error => error.message

namespace Config

/-- The operators with the given names. -/
def operators (dataset : String) (names : List String) : Except ConfigError (List Operator) :=
  names.mapM fun name =>
    match Operator.ofName? name with
    | some op => .ok op
    | none => .error (.unknownOperator dataset name)

/-- The operators with the given names, if any names are given. -/
def operators? (dataset : String) :
    Option (List String) → Except ConfigError (Option (List Operator))
  | some names => (operators dataset names).map some
  | none => .ok none

/-- The scalar that an admitted value stands for. Dates and times are text. -/
def scalar? : Toml → Option Scalar
  | .string value => some (.text value)
  | .integer value => some (.int (Int64.ofInt value))
  | .float value => (value.value?.bind FiniteNumber.ofBinary64?).map .float
  | .boolean value => some (.bool value)
  | .moment value => some (.text value.text)
  | .misspelled _ => none
  | .array _ => none
  | .table _ => none

/-- The scalars that a list of admitted values stands for. -/
def scalars (values : List Toml) : Except LimitsFault (List Scalar) :=
  values.mapM fun value =>
    match scalar? value with
    | some scalar => .ok scalar
    | none => .error (.notScalar value)

/-- Checks the bounds of a field of a type. -/
def checkBounds (type : FieldType) (field : FieldConfig) : Except LimitsFault Unit :=
  if (field.min.isSome || field.max.isSome) && !type.isNumeric then .error (.numericBounds type)
  else if (field.minLength.isSome || field.maxLength.isSome) && type ≠ .text then
    .error (.lengthBounds type)
  else
    match field.min, field.max with
    | some min, some max => if max.lt min then .error (.minAboveMax min max) else .ok ()
    | _, _ => .ok ()

/-- Checks the bounds on the length of text. -/
def checkLengths (field : FieldConfig) : Except LimitsFault Unit :=
  match field.minLength, field.maxLength with
  | some least, some most =>
    if most < least then .error (.minLengthAboveMax least most) else .ok ()
  | _, _ => .ok ()

/-- The limits of a field of a type. -/
def limits (type : FieldType) (field : FieldConfig) : Except LimitsFault Limits := do
  checkBounds type field
  checkLengths field
  let oneOf ← scalars field.oneOf
  .ok ⟨field.min, field.max, field.minLength, field.maxLength, oneOf⟩

/-- Checks that a name can stand for a field in a filter. -/
def checkFieldName (dataset field : String) : Except ConfigError Unit :=
  if field.isEmpty then .error (.emptyFieldName dataset)
  else if (Operator.ofName? field).isSome then .error (.operatorFieldName dataset field)
  else .ok ()

/-- Compiles a field. -/
def compileField (dataset name : String) (field : FieldConfig) : Except ConfigError Field := do
  checkFieldName dataset name
  match FieldType.ofName? field.type with
  | none => .error (.unknownFieldType dataset name field.type)
  | some type =>
    let operators ← operators? dataset field.operators
    let limits ← (limits type field).mapError (.limits dataset name)
    .ok ⟨type, operators, limits⟩

/-- Compiles the fields of a dataset. -/
def compileFields (dataset : String) (fields : List (String × FieldConfig)) :
    Except ConfigError (List (String × Field)) :=
  fields.mapM fun (name, field) => (compileField dataset name field).map fun field => (name, field)

/-- Compiles a dataset. -/
def compileDataset (name : String) (dataset : DatasetConfig) : Except ConfigError Dataset := do
  let operators ← operators? name dataset.operators
  let fields ← compileFields name dataset.fields.entries
  .ok (Dataset.declare name fields operators dataset.foreigns)

/-- Compiles datasets and registers them, one after the other. -/
def registerDatasets (datasets : List (String × DatasetConfig)) (registry : Registry) :
    Except ConfigError Registry :=
  datasets.foldlM (fun registry (name, dataset) => do
    let dataset ← compileDataset name dataset
    (registry.register dataset).mapError .registry) registry

/-- Compiles a configuration. -/
def compile (config : Config) : Except ConfigError Registry := do
  let registry ← registerDatasets config.datasets.entries .empty
  let registry ←
    match config.default? with
    | some name => (registry.setDefault name).mapError .registry
    | none => .ok registry
  registry.check.mapError .registry
  .ok registry

end Config

end FilterLang
