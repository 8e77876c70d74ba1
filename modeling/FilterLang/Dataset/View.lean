import FilterLang.Dataset.Declaration

/-!
# Views

A view is a dataset together with its foreign datasets. A field belongs to the dataset itself if
that declares it, and else to the first foreign one that does. The foreign datasets of a foreign
dataset play no part.

What a view asks its datasets for is their names, whether they have a field or admit an operator,
their foreign datasets, and their complaints. These questions could be an interface of their own,
but only declared datasets answer them, and so a view holds a `Dataset` and reads every answer off
its declarations.
-/

namespace FilterLang

/-- A dataset and its foreign datasets. -/
structure View where
  /-- The dataset itself. -/
  root : Dataset
  /-- The foreign datasets, in the order of their declaration. -/
  foreigns : List Dataset

namespace View

/-- The view of a dataset without its foreign datasets. -/
def standalone (root : Dataset) : View := ⟨root, []⟩

/-- The name of the dataset. -/
def name (view : View) : String := view.root.name

/-- The datasets of a view, the dataset itself first. -/
def datasets (view : View) : List Dataset := view.root :: view.foreigns

/-- The dataset that a field belongs to. -/
def owner? (view : View) (field : String) : Option Dataset :=
  view.datasets.find? fun dataset => dataset.hasField field

/-- Whether a field belongs to one of the datasets. -/
def hasField (view : View) (field : String) : Bool := (view.owner? field).isSome

/-- Whether one of the datasets admits an operator. -/
def hasOperator (view : View) (op : Operator) : Bool :=
  view.datasets.any fun dataset => dataset.hasOperator op

/-- Whether the dataset declares a foreign dataset of this name. -/
def hasForeign (view : View) (name : String) : Bool := view.root.foreigns.contains name

/-- Complaints of the owner of a field about the type of a value. -/
def typeComplaints (view : View) (field : String) (value : Node) : List Complaint :=
  match view.owner? field with
  | some owner => owner.typeComplaints field value
  | none => []

/-- Complaints of the owner of a field about the limits of a value. -/
def limitComplaints (view : View) (field : String) (value : Node) : List Complaint :=
  match view.owner? field with
  | some owner => owner.limitComplaints field value
  | none => []

/-- Complaints of the owner of a field about a comparison. -/
def operatorComplaints (view : View) (field : Option String) (op : Operator) : List Complaint :=
  ((field.bind view.owner?).getD view.root).operatorComplaints field op

/-- A view as a diagnostic text. -/
def inspect (view : View) : String :=
  "SchemaView \x7b root: " ++ quoted view.name ++ ", foreigns: ["
    ++ ", ".intercalate (view.foreigns.map fun dataset => quoted dataset.name) ++ "] \x7d"

end View

end FilterLang
