import FilterLang.Vocabulary.Operator

/-!
# Mapping keys

A key is classified once, when it is read: a spelling from the vocabulary is an operator and every
other spelling names a field. Keys have a total order in which operators come before fields.
-/

namespace FilterLang

/-- A mapping key: an operator, or the name of a field. -/
inductive Key where
  | operator (op : Operator)
  | field (name : String)
  deriving DecidableEq

namespace Key

/-- The key with a given spelling. -/
def ofName (spelling : String) : Key :=
  match Operator.ofName? spelling with
  | some op => .operator op
  | none => .field spelling

/-- The spelling of a key. -/
def name : Key → String
  | .operator op => op.name
  | .field name => name

/-- The operator of a key, when it is one. -/
def operator? : Key → Option Operator
  | .operator op => some op
  | .field _ => none

/-- The field of a key, when it names one. -/
def field? : Key → Option String
  | .operator _ => none
  | .field name => some name

/-- Whether a key is an operator. -/
def isOperator : Key → Bool
  | .operator _ => true
  | .field _ => false

/-- Operators precede fields, operators go by vocabulary order and fields by their characters. -/
def precedes : Key → Key → Bool
  | .operator first, .operator second => first.rank ≤ second.rank
  | .operator _, .field _ => true
  | .field _, .operator _ => false
  | .field first, .field second => first ≤ second

/-- The keys of a list in ascending order. -/
def sort (keys : List Key) : List Key := keys.mergeSort precedes

/-- A key that spells an operator is that operator. -/
def Classified : Key → Prop
  | .operator _ => True
  | .field name => Operator.ofName? name = none

theorem ofName_classified (spelling : String) : (ofName spelling).Classified := by
  unfold ofName
  split
  · trivial
  · next absent => exact absent

end Key

end FilterLang
