import FilterLang.Dataset.View

/-!
# Registries

A registry holds datasets by name, one of which is the default. The first dataset that is registered
becomes the default, until another is chosen. As in a view, every dataset is a declared one: no
other kind can be registered.
-/

namespace FilterLang

/-- Datasets by name. -/
structure Registry where
  /-- The registered datasets. -/
  datasets : Table Dataset
  /-- The name of the default dataset. -/
  default? : Option String

/-- Why a registry refuses a request. -/
inductive RegistryError where
  | unknownDataset (name : String)
  | duplicateDataset (name : String)
  | unknownForeign (dataset foreign : String)
  | noDefault
  deriving DecidableEq

/-- The text of a registry error. -/
def RegistryError.message : RegistryError → String
  | .unknownDataset name => "unknown dataset '" ++ name ++ "'"
  | .duplicateDataset name => "dataset '" ++ name ++ "' is already registered"
  | .unknownForeign dataset foreign =>
    "dataset '" ++ dataset ++ "' declares unknown foreign '" ++ foreign ++ "'"
  | .noDefault => "no default dataset is configured"

namespace Registry

/-- The registry without datasets. -/
def empty : Registry := ⟨.empty, none⟩

/-- The dataset with a name. -/
def find? (registry : Registry) (name : String) : Option Dataset := registry.datasets.find? name

/-- The registered names in order. -/
def names (registry : Registry) : List String := registry.datasets.names

/-- Registers a dataset under its name. -/
def register (registry : Registry) (dataset : Dataset) : Except RegistryError Registry :=
  if registry.datasets.has dataset.name then .error (.duplicateDataset dataset.name)
  else .ok
    { datasets := registry.datasets.insert dataset.name dataset
      default? := registry.default?.or (some dataset.name) }

/-- Registers datasets one after the other. -/
def registerAll (registry : Registry) (datasets : List Dataset) : Except RegistryError Registry :=
  datasets.foldlM register registry

/-- Chooses the default dataset. -/
def setDefault (registry : Registry) (name : String) : Except RegistryError Registry :=
  if registry.datasets.has name then .ok { registry with default? := some name }
  else .error (.unknownDataset name)

/-- The datasets that a dataset names as foreign, in order. -/
def resolve (registry : Registry) (dataset : String) :
    List String → Except RegistryError (List Dataset)
  | [] => .ok []
  | foreign :: rest => do
    match registry.find? foreign with
    | none => .error (.unknownForeign dataset foreign)
    | some found =>
      let others ← registry.resolve dataset rest
      .ok (found :: others)

/-- The view of the dataset with a name. -/
def view (registry : Registry) (name : String) : Except RegistryError View := do
  match registry.find? name with
  | none => .error (.unknownDataset name)
  | some root => .ok ⟨root, ← registry.resolve name root.foreigns⟩

/-- The view of the default dataset. -/
def defaultView (registry : Registry) : Except RegistryError View :=
  match registry.default? with
  | none => .error .noDefault
  | some name => registry.view name

/-- The view of the dataset with a name, or of the default dataset if none is given. -/
def viewOf (registry : Registry) : Option String → Except RegistryError View
  | some name => registry.view name
  | none => registry.defaultView

/-- Checks that every dataset has a view. The first name without one is reported. -/
def check (registry : Registry) : Except RegistryError Unit :=
  registry.names.forM fun name => (registry.view name).map fun _ => ()

/-- A registry as a diagnostic text. -/
def inspect (registry : Registry) : String :=
  "SchemaRegistry \x7b schemas: [" ++ ", ".intercalate (registry.names.map quoted)
    ++ "], default: "
    ++ (match registry.default? with
      | some name => "Some(" ++ quoted name ++ ")"
      | none => "None")
    ++ " \x7d"

end Registry

end FilterLang
