/-!
# The operator vocabulary

A filter is built from a closed vocabulary of seventeen operators. Every operator belongs to exactly
one `Operator.Category`, and the category decides how a mapping that holds the operator is read.
-/

namespace FilterLang

/-- An operator of the filter language, in alphabetical order of the spellings. -/
inductive Operator where
  | and
  | between
  | dataset
  | stop
  | eq
  | filter
  | foreign
  | given
  | gt
  | gte
  | among
  | lt
  | lte
  | neg
  | or
  | partly
  | start
  deriving DecidableEq

namespace Operator

/-- The spelling of an operator in a filter. -/
def name : Operator → String
  | .and => "and"
  | .between => "between"
  | .dataset => "dataset"
  | .stop => "end"
  | .eq => "eq"
  | .filter => "filter"
  | .foreign => "foreign"
  | .given => "given"
  | .gt => "gt"
  | .gte => "gte"
  | .among => "in"
  | .lt => "lt"
  | .lte => "lte"
  | .neg => "neg"
  | .or => "or"
  | .partly => "partial"
  | .start => "start"

/-- The whole vocabulary, in alphabetical order of the spellings. -/
def all : List Operator :=
  [.and, .between, .dataset, .stop, .eq, .filter, .foreign, .given, .gt, .gte, .among, .lt, .lte,
    .neg, .or, .partly, .start]

/-- The operators that combine clauses. -/
def logical : List Operator := [.and, .or]

/-- The operators that constrain the value of a field. -/
def comparison : List Operator :=
  [.among, .between, .start, .stop, .eq, .lt, .lte, .gt, .gte, .neg]

/-- The operators of a partial filter. -/
def partialParts : List Operator := [.partly, .given, .filter]

/-- The operators of a filter on another dataset. -/
def foreignParts : List Operator := [.foreign, .dataset, .filter]

/-- The operator with a given spelling. Spellings are case-sensitive. -/
def ofName? (spelling : String) : Option Operator :=
  all.find? fun op => op.name == spelling

/-- Whether an operator combines clauses. -/
def isLogical (op : Operator) : Bool := logical.contains op

/-- Whether an operator constrains the value of a field. -/
def isComparison (op : Operator) : Bool := comparison.contains op

/-- Whether an operator takes a multiset of admitted values. -/
def isMembership (op : Operator) : Bool := op == .among

/-- Whether an operator belongs to a partial filter. -/
def isPartial (op : Operator) : Bool := partialParts.contains op

/-- Whether an operator belongs to a filter on another dataset. -/
def isForeign (op : Operator) : Bool := foreignParts.contains op

/-- Whether an operator shapes a filter without comparing or combining. -/
def isStructural (op : Operator) : Bool := op.isPartial || op.isForeign

/-- Whether the operand of an operator is a value of the enclosing field. -/
def takesFieldOperand : Operator → Bool
  | .eq | .lt | .lte | .gt | .gte | .start | .stop => true
  | _ => false

/-- The three disjoint roles of an operator. -/
inductive Category where
  | logical
  | comparison
  | structural
  deriving DecidableEq

/-- The role of an operator. -/
def category (op : Operator) : Category :=
  if op.isLogical then .logical
  else if op.isComparison then .comparison
  else .structural

/-- The position of an operator in the vocabulary. -/
def rank (op : Operator) : Nat := all.idxOf op

/-- The operators of a list, each once and in vocabulary order. -/
def ordered (operators : List Operator) : List Operator :=
  all.filter fun op => operators.contains op

@[simp]
theorem mem_all (op : Operator) : op ∈ all := by
  cases op <;> simp [all]

@[simp]
theorem mem_ordered {operators : List Operator} {op : Operator} :
    op ∈ ordered operators ↔ op ∈ operators := by
  simp [ordered]

@[simp]
theorem ofName?_name (op : Operator) : ofName? op.name = some op := by
  cases op <;> decide

end Operator

end FilterLang
