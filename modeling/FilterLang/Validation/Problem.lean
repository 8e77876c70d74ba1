import FilterLang.Dataset.Declaration
import FilterLang.Filter.Text

/-!
# Problems

What validation can find wrong with a filter. The kinds of problems fall into two classes:
structural ones break the grammar of filters, semantic ones ask for something that the dataset does
not allow.
-/

namespace FilterLang

/-- The classes of problems. -/
inductive ProblemClass where
  | structural
  | semantic
  deriving DecidableEq

/-- The name of a class of problems. -/
def ProblemClass.name : ProblemClass → String
  | .structural => "structural"
  | .semantic => "semantic"

/-- The kinds of problems. -/
inductive ProblemKind where
  | invalidStructure
  | missingContext
  | missingFieldContext
  | expectedMapping
  | compositeWhereScalarExpected
  | unknownKey
  | operatorNotPermitted
  | typeMismatch
  | valueConstraintViolation
  | unknownForeign
  deriving DecidableEq

namespace ProblemKind

/-- Every kind of problem, the structural ones first. -/
def all : List ProblemKind :=
  [.invalidStructure, .missingContext, .missingFieldContext, .expectedMapping,
    .compositeWhereScalarExpected, .unknownKey, .operatorNotPermitted, .typeMismatch,
    .valueConstraintViolation, .unknownForeign]

/-- The name of a kind of problem. -/
def name : ProblemKind → String
  | .invalidStructure => "invalid_structure"
  | .missingContext => "missing_context"
  | .missingFieldContext => "missing_field_context"
  | .expectedMapping => "expected_mapping"
  | .compositeWhereScalarExpected => "composite_where_scalar_expected"
  | .unknownKey => "unknown_key"
  | .operatorNotPermitted => "operator_not_permitted"
  | .typeMismatch => "type_mismatch"
  | .valueConstraintViolation => "value_constraint_violation"
  | .unknownForeign => "unknown_foreign"

/-- The kind of problem with a given name. -/
def ofName? (name : String) : Option ProblemKind := all.find? fun kind => kind.name == name

/-- The class of a kind of problem. -/
def problemClass : ProblemKind → ProblemClass
  | .invalidStructure | .missingContext | .missingFieldContext | .expectedMapping
  | .compositeWhereScalarExpected => .structural
  | .unknownKey | .operatorNotPermitted | .typeMismatch | .valueConstraintViolation
  | .unknownForeign => .semantic

end ProblemKind

/-- What is wrong at a position of a filter. -/
inductive Problem where
  /-- A sequence. -/
  | sequence
  /-- A multiset that no operator takes. -/
  | multisetAlone
  /-- A multiset under an operator that takes none. -/
  | multisetOperand (op : Operator)
  /-- A membership test outside every field. -/
  | membershipWithoutField (op : Operator)
  /-- A filter that is no mapping. -/
  | rootNotMapping (found : NodeKind)
  /-- A clause that is no mapping. -/
  | clauseNotMapping (op : Operator) (found : NodeKind)
  /-- An admitted value that is no scalar. -/
  | memberNotScalar (op : Operator) (found : NodeKind)
  /-- A field that no dataset of the view declares. -/
  | unknownField (field dataset : String)
  /-- An operator that no dataset of the view admits. -/
  | operatorNotAdmitted (op : Operator) (dataset : String)
  /-- A comparison that the field does not admit. -/
  | comparisonNotAdmitted (complaint : Complaint)
  /-- A value of the wrong type. -/
  | wrongType (complaint : Complaint)
  /-- A value outside the limits of the field. -/
  | outsideLimits (complaint : Complaint)
  /-- The name of a dataset that is not foreign to this one. -/
  | notForeign (name dataset : String)
  /-- A tree in place of the name of a foreign dataset. -/
  | foreignNotNamed (found : Node)

namespace Problem

/-- The kind of a problem. -/
def kind : Problem → ProblemKind
  | .sequence => .invalidStructure
  | .multisetAlone => .missingContext
  | .multisetOperand _ => .missingContext
  | .membershipWithoutField _ => .missingFieldContext
  | .rootNotMapping _ => .expectedMapping
  | .clauseNotMapping _ _ => .expectedMapping
  | .memberNotScalar _ _ => .compositeWhereScalarExpected
  | .unknownField _ _ => .unknownKey
  | .operatorNotAdmitted _ _ => .operatorNotPermitted
  | .comparisonNotAdmitted _ => .operatorNotPermitted
  | .wrongType _ => .typeMismatch
  | .outsideLimits _ => .valueConstraintViolation
  | .notForeign _ _ => .unknownForeign
  | .foreignNotNamed _ => .unknownForeign

/-- The text of a problem. -/
def message : Problem → String
  | .sequence => "raw sequence found; arrays must be lifted into multisets"
  | .multisetAlone => "a multiset needs an enclosing 'and', 'or' or 'in'"
  | .multisetOperand op =>
    "a multiset cannot be the operand of '" ++ op.name ++ "'; expected 'and', 'or' or 'in'"
  | .membershipWithoutField op => "'" ++ op.name ++ "' needs an enclosing field"
  | .rootNotMapping found => "filter must be a mapping, found " ++ found.name
  | .clauseNotMapping op found =>
    "members of '" ++ op.name ++ "' must be mappings, found " ++ found.name
  | .memberNotScalar op found =>
    "members of '" ++ op.name ++ "' must be scalars, found " ++ found.name
  | .unknownField field dataset =>
    "'" ++ field ++ "' is neither an operator nor a field of dataset '" ++ dataset ++ "'"
  | .operatorNotAdmitted op dataset =>
    "operator '" ++ op.name ++ "' is not permitted by dataset '" ++ dataset ++ "'"
  | .comparisonNotAdmitted complaint => complaint.message
  | .wrongType complaint => complaint.message
  | .outsideLimits complaint => complaint.message
  | .notForeign name dataset =>
    "'" ++ name ++ "' is not a foreign dataset of '" ++ dataset ++ "'"
  | .foreignNotNamed found => "'dataset' must name a foreign dataset, found " ++ found.text

end Problem

end FilterLang
