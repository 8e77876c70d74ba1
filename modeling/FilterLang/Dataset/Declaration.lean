import FilterLang.Dataset.FieldType
import FilterLang.Dataset.Limits
import FilterLang.Filter.Node
import FilterLang.Table

/-!
# Datasets

A dataset declares fields, the operators that filters on it may use, and the foreign datasets that
they may refer to. It judges a value or an operator by complaints; no complaint is consent.
-/

namespace FilterLang

/-- The declaration of a field. -/
structure Field where
  /-- The type of the values. -/
  type : FieldType
  /-- The comparisons that the field admits; `none` is all of them. -/
  operators : Option (List Operator)
  /-- The limits of the values. -/
  limits : Limits

/-- A dataset that filters can be written for. -/
structure Dataset where
  /-- The name of the dataset. -/
  name : String
  /-- The declared fields. -/
  fields : Table Field
  /-- The admitted operators. -/
  operators : List Operator
  /-- The names of the foreign datasets, each once, in the order of their declaration. -/
  foreigns : List String

/-- What is wrong with a value or an operator on a field. -/
inductive Complaint where
  | wrongType (field : String) (expected : FieldType) (found : Node)
  | outsideLimits (field : String) (value : Scalar) (violation : Violation)
  | operatorNotAdmitted (op : Operator) (field dataset : String)

namespace Complaint

/-- A tree as complaints name it: a scalar in full, anything else by its kind. -/
def foundText : Node → String
  | .scalar value => value.kind ++ " " ++ value.display
  | node => node.kind.name

/-- The text of a complaint. -/
def message : Complaint → String
  | .wrongType field expected found =>
    "field '" ++ field ++ "' expects " ++ expected.name ++ ", found " ++ foundText found
  | .outsideLimits field value violation =>
    "value " ++ value.display ++ " for field '" ++ field ++ "' " ++ violation.text
  | .operatorNotAdmitted op field dataset =>
    "operator '" ++ op.name ++ "' is not permitted on field '" ++ field ++ "' of dataset '"
      ++ dataset ++ "'"

end Complaint

namespace Dataset

/-- A list of names without its repetitions. -/
def distinct (names : List String) : List String :=
  names.foldl (fun seen name => if seen.contains name then seen else seen ++ [name]) []

/-- The dataset with the given declarations, in the order in which they are made. A field that is
declared twice has its last declaration, and a foreign dataset that is named twice counts once. -/
def declare (name : String) (fields : List (String × Field)) (operators : Option (List Operator))
    (foreigns : List String) : Dataset where
  name := name
  fields := Table.ofList fields
  operators := operators.getD Operator.all
  foreigns := distinct foreigns

/-- The declaration of a field. -/
def field? (dataset : Dataset) (field : String) : Option Field := dataset.fields.find? field

/-- Whether a field is declared. -/
def hasField (dataset : Dataset) (field : String) : Bool := dataset.fields.has field

/-- Whether an operator is admitted. -/
def hasOperator (dataset : Dataset) (op : Operator) : Bool := dataset.operators.contains op

/-- Complaints about the type of a value of a field. Only scalars are accepted. -/
def typeComplaints (dataset : Dataset) (field : String) (value : Node) : List Complaint :=
  match dataset.field? field with
  | none => []
  | some declaration =>
    if value.scalar?.any declaration.type.accepts then []
    else [.wrongType field declaration.type value]

/-- Complaints about the limits of a field. Only scalars have limits. -/
def limitComplaints (dataset : Dataset) (field : String) (value : Node) : List Complaint :=
  match dataset.field? field, value.scalar? with
  | some declaration, some scalar =>
    (declaration.limits.violations scalar).map (.outsideLimits field scalar)
  | _, _ => []

/-- Complaints about a comparison on a field. -/
def operatorComplaints (dataset : Dataset) (field : Option String) (op : Operator) :
    List Complaint :=
  match field with
  | none => []
  | some field =>
    match (dataset.field? field).bind (·.operators) with
    | none => []
    | some admitted =>
      if !op.isComparison || admitted.contains op then []
      else [.operatorNotAdmitted op field dataset.name]

end Dataset

end FilterLang
