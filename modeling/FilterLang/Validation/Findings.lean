import FilterLang.Dataset.View
import FilterLang.Validation.Position
import FilterLang.Validation.Problem

/-!
# Findings

`View.findings` lists every problem in a tree, part by part. Positions are counted from the tree, so
that what is found in it does not depend on where it stands.

What a node means depends on the operator and the field above it. Within one mapping the entries are
visited in order, and an entry sees the operator and the field that the entries before it have set.
-/

namespace FilterLang

/-- A problem and where it was found. -/
structure Finding where
  /-- The position of the problem. -/
  position : Position
  /-- What is wrong there. -/
  problem : Problem

namespace Finding

/-- A problem at the root of a tree. -/
def here (problem : Problem) : Finding := ⟨[], problem⟩

/-- A finding in a tree that a step leads to. -/
def under (step : Step) (finding : Finding) : Finding := ⟨step :: finding.position, finding.problem⟩

end Finding

/-- The operator and the field that a node is read under. -/
structure Context where
  /-- The nearest operator. -/
  operator : Option Operator
  /-- The nearest field that belongs to a dataset of the view. -/
  field : Option String

namespace Context

/-- The context of a whole filter. -/
def root : Context := ⟨none, none⟩

/-- The context after an operator. -/
def afterOperator (context : Context) (op : Operator) : Context :=
  { context with operator := some op }

/-- The context after a field. Only fields of the view count. -/
def afterField (view : View) (context : Context) (field : String) : Context :=
  if view.hasField field then { context with field := some field } else context

end Context

namespace View

/-- The problems of a scalar as a value of a field. Limits count only for values of the right
type. -/
def valueProblems (view : View) (field : String) (value : Scalar) : List Problem :=
  match view.typeComplaints field (.scalar value) with
  | [] => (view.limitComplaints field (.scalar value)).map .outsideLimits
  | complaints => complaints.map .wrongType

/-- The problems of a scalar that stands under an operator. -/
def operandProblems (view : View) (context : Context) (value : Scalar) : List Problem :=
  match context.operator, context.field with
  | some op, some field => if op.takesFieldOperand then view.valueProblems field value else []
  | _, _ => []

/-- The problems of an operator in a context. -/
def operatorProblems (view : View) (context : Context) (op : Operator) : List Problem :=
  if view.hasOperator op then
    (view.operatorComplaints context.field op).map .comparisonNotAdmitted
  else
    [.operatorNotAdmitted op view.name]

/-- The problems of the value that names a foreign dataset. -/
def foreignProblems (view : View) (value : Node) : List Problem :=
  match value.scalar?.bind Scalar.text? with
  | some name => if view.hasForeign name then [] else [.notForeign name view.name]
  | none => [.foreignNotNamed value]

/-- The problems of the key of an entry, in a mapping under an operator. -/
def keyProblems (view : View) (enclosing : Option Operator) (context : Context) (key : Key)
    (value : Node) : List Problem :=
  match key with
  | .operator op =>
    view.operatorProblems context op
      ++ (if op = .dataset ∧ enclosing = some .foreign then view.foreignProblems value else [])
  | .field field => if view.hasField field then [] else [.unknownField field view.name]

/-- The context of the value of an entry and of the entries after it. -/
def contextAfter (view : View) (context : Context) : Key → Context
  | .operator op => context.afterOperator op
  | .field field => context.afterField view field

/-- The problems of an admitted value. -/
def memberProblems (view : View) (op : Operator) (field : Option String) :
    Node → List Problem
  | .scalar value =>
    match field with
    | some field => view.valueProblems field value
    | none => []
  | member => [.memberNotScalar op member.kind]

/-- The findings in a list of admitted values, of which the first has the given index. -/
def membershipFindings (view : View) (op : Operator) (field : Option String) (index : Nat) :
    Elements → List Finding
  | [] => []
  | member :: rest =>
    ((view.memberProblems op field member).map Finding.here).map (.under (.index index))
      ++ view.membershipFindings op field (index + 1) rest

/-- The problems of a clause as a whole. -/
def clauseProblems (op : Operator) (clause : Node) : List Problem :=
  if clause.isMapping then [] else [.clauseNotMapping op clause.kind]

mutual

/-- The findings in a tree. -/
def findings (view : View) (context : Context) : Node → List Finding
  | .scalar value => (view.operandProblems context value).map Finding.here
  | .mapping entries => view.entryFindings context.operator context entries
  | .multiset elements =>
    match context.operator with
    | none => [.here .multisetAlone]
    | some op =>
      if op.isLogical then view.clauseFindings op context 0 elements
      else if op.isMembership then
        (if context.field.isNone then [.here (.membershipWithoutField op)] else [])
          ++ view.membershipFindings op context.field 0 elements
      else [.here (.multisetOperand op)]
  | .sequence _ => [.here .sequence]
termination_by structural node => node

/-- The findings in the entries of a mapping under an operator. A scalar is compared with the field
that it is bound to, and everything else is walked over. -/
def entryFindings (view : View) (enclosing : Option Operator) (context : Context) :
    Entries → List Finding
  | [] => []
  | (key, value) :: rest =>
    let inner := view.contextAfter context key
    let found :=
      (view.keyProblems enclosing context key value).map Finding.here
        ++ (match key, value.scalar? with
          | .field field, some scalar =>
            if view.hasField field then (view.valueProblems field scalar).map Finding.here else []
          | _, _ => view.findings inner value)
    found.map (Finding.under (.key key)) ++ view.entryFindings enclosing inner rest
termination_by structural entries => entries

/-- The findings in a list of clauses, of which the first has the given index. -/
def clauseFindings (view : View) (op : Operator) (context : Context) (index : Nat) :
    Elements → List Finding
  | [] => []
  | clause :: rest =>
    ((clauseProblems op clause).map Finding.here ++ view.findings context clause).map
        (.under (.index index))
      ++ view.clauseFindings op context (index + 1) rest
termination_by structural elements => elements

end

/-- The findings in a whole filter. -/
def filterFindings (view : View) (filter : Node) : List Finding :=
  (if filter.isMapping then [] else [.here (.rootNotMapping filter.kind)])
    ++ view.findings .root filter

end View

end FilterLang
