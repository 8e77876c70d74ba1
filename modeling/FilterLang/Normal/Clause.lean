import FilterLang.Filter.Node
import FilterLang.Normal.Fault

/-!
# Clauses

A mapping with several constraints is short for a conjunction of clauses with one constraint each.
How a mapping is read depends on the category of its first key, which all its keys must share, and
on the nearest key above it that gives comparisons a meaning.
-/

namespace FilterLang

/-- How the entries of a mapping are read. -/
inductive Reading where
  /-- The mapping stays as it is, and its values are expanded by themselves. -/
  | whole
  /-- Every entry is a comparison, and is a clause under the enclosing key. -/
  | comparisons (enclosing : Key)
  /-- Every entry is a clause on its own field. -/
  | fields
  deriving DecidableEq

namespace Reading

/-- Whether every key is an operator of a category. -/
def uniform (category : Operator.Category) (keys : List Key) : Bool :=
  keys.all fun key => (key.operator?.map Operator.category) == some category

/-- The fault of a mapping whose keys do not go together. -/
def mixed (keys : List Key) : Except Fault Reading := .error (.mixedKeys (keys.map Key.name))

/-- How comparisons are read. A comparison that stands alone needs no field. -/
def ofComparisons (enclosing : Option Key) (keys : List Key) : Except Fault Reading :=
  match enclosing, keys with
  | some (.field name), _ => .ok (.comparisons (.field name))
  | _, [_] => .ok .whole
  | some key, _ => .ok (.comparisons key)
  | none, _ => .error (.missingField (keys.map Key.name))

/-- How a mapping with the given keys is read under the enclosing key. -/
def ofKeys (enclosing : Option Key) (keys : List Key) : Except Fault Reading :=
  match keys with
  | [] => .ok .whole
  | .operator op :: _ =>
    if !uniform op.category keys then mixed keys
    else if op.category = .comparison then ofComparisons enclosing keys
    else .ok .whole
  | .field _ :: _ => if keys.any Key.isOperator then mixed keys else .ok .fields

end Reading

namespace Node

/-- The conjunction of clauses. A single clause is its own conjunction. -/
def conjunction : List Node → Node
  | [clause] => clause
  | clauses => Node.and clauses

mutual

/-- Makes the conjunctions in a tree explicit. `enclosing` is the nearest key above the tree that
gives comparisons a meaning. -/
def expandConjunction (enclosing : Option Key) : Node → Except Fault Node
  | .scalar value => .ok (.scalar value)
  | .mapping entries => do
    match ← Reading.ofKeys enclosing (Entries.keys entries) with
    | .whole => .ok (.mapping (← expandedEntries entries))
    | .comparisons key => .ok (conjunction (← comparisonClauses key entries))
    | .fields => .ok (conjunction (← fieldClauses entries))
  | .multiset elements => do .ok (.multiset (Elements.ofList (← expandedElements elements)))
  | .sequence _ => .error (.rawSequence .impliedConjunction)
termination_by structural node => node

/-- Expands the values of a mapping, each by itself. -/
def expandedEntries : Entries → Except Fault Entries
  | [] => .ok []
  | (key, value) :: rest => do
    let value ← expandConjunction none value
    let rest ← expandedEntries rest
    .ok ((key, value) :: rest)
termination_by structural entries => entries

/-- The clauses of comparisons under an enclosing key, with operands expanded under the operator. -/
def comparisonClauses (enclosing : Key) : Entries → Except Fault (List Node)
  | [] => .ok []
  | (key, value) :: rest => do
    let value ← expandConjunction (some key) value
    let rest ← comparisonClauses enclosing rest
    .ok (entry enclosing (entry key value) :: rest)
termination_by structural entries => entries

/-- The clauses of fields. A mapping attaches the field to its own clauses where they need it. -/
def fieldClauses : Entries → Except Fault (List Node)
  | [] => .ok []
  | (key, value) :: rest => do
    let expanded ← expandConjunction (some key) value
    let rest ← fieldClauses rest
    .ok ((if value.isMapping then expanded else entry key expanded) :: rest)
termination_by structural entries => entries

/-- Expands each element of a multiset, as a clause by itself. -/
def expandedElements : Elements → Except Fault (List Node)
  | [] => .ok []
  | element :: rest => do
    let element ← expandConjunction none element
    let rest ← expandedElements rest
    .ok (element :: rest)
termination_by structural elements => elements

end

end Node

end FilterLang
