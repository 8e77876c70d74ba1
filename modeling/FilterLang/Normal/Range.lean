import FilterLang.Filter.Node
import FilterLang.Normal.Fault

/-!
# Ranges

A range is a pair of bounds, `start` and `end`. `Node.expandRange` puts bounds that stand beside
each other under `between`, and `Node.compareRange` turns the range of an entry into the two
comparisons that it abbreviates. What stands beside the bounds of a range is dropped, whatever it
holds.

Both passes compute the results of all entries of a mapping before they decide which of them are
used, so that a tree is walked once.
-/

namespace FilterLang

/-- What becomes of the two bounds of a range. -/
structure Bounds where
  /-- The lower bound. -/
  start : Except Fault Node
  /-- The upper bound. -/
  stop : Except Fault Node

namespace Bounds

/-- The bounds among the results of the entries of a mapping, if both are there. -/
def among? (results : List (Key × Except Fault Node)) : Option Bounds :=
  match results.lookup (.operator .start), results.lookup (.operator .stop) with
  | some start, some stop => some ⟨start, stop⟩
  | _, _ => none

/-- The mapping that binds the bounds to two operators. -/
def bind (bounds : Bounds) (lower upper : Operator) : Except Fault Node := do
  let start ← bounds.start
  let stop ← bounds.stop
  .ok (.mapping [(.operator lower, start), (.operator upper, stop)])

end Bounds

/-- The entries with the given results, or the first fault among them. -/
def Entries.collect : List (Key × Except Fault Node) → Except Fault Entries
  | [] => .ok []
  | (key, result) :: rest => do
    let value ← result
    let entries ← collect rest
    .ok ((key, value) :: entries)

namespace Node

mutual

/-- Puts two bounds that stand beside each other under `between`. -/
def expandRange : Node → Except Fault Node
  | .scalar value => .ok (.scalar value)
  | .mapping entries =>
    let results := expandRangeEntries entries
    match Bounds.among? results with
    | some bounds => do .ok (entry (.operator .between) (← bounds.bind .start .stop))
    | none => do .ok (.mapping (← Entries.collect results))
  | .multiset elements => do .ok (.multiset (Elements.ofList (← expandRangeAll elements)))
  | .sequence _ => .error (.rawSequence .impliedRange)
termination_by structural node => node

/-- The results of expanding the values of a mapping. -/
def expandRangeEntries : Entries → List (Key × Except Fault Node)
  | [] => []
  | (key, value) :: rest => (key, expandRange value) :: expandRangeEntries rest
termination_by structural entries => entries

/-- Expands each element of a multiset. -/
def expandRangeAll : Elements → Except Fault (List Node)
  | [] => .ok []
  | element :: rest => do
    let element ← expandRange element
    let rest ← expandRangeAll rest
    .ok (element :: rest)
termination_by structural elements => elements

end

/-- What becomes of a node: by itself, and for the entry above it. -/
structure RangeForms where
  /-- The node by itself. -/
  node : Except Fault Node
  /-- The resulting bounds, if the node is a mapping that holds both. -/
  bounds : Option Bounds
  /-- The resulting bounds under `between`, if the node is a mapping that holds a range there. -/
  range : Option Bounds

namespace RangeForms

/-- A node that offers no bounds. -/
def plain (node : Except Fault Node) : RangeForms := ⟨node, none, none⟩

/-- The node as the value of an entry: a range becomes two comparisons. -/
def value (forms : RangeForms) : Except Fault Node :=
  match forms.range with
  | some bounds => bounds.bind .gte .lte
  | none => forms.node

/-- The forms of a mapping, from those of its values. -/
def ofEntries (values : List (Key × RangeForms)) : RangeForms where
  node := do .ok (.mapping (← Entries.collect (values.map fun (key, value) => (key, value.value))))
  bounds := Bounds.among? (values.map fun (key, value) => (key, value.node))
  range := (values.lookup (.operator .between)).bind (·.bounds)

end RangeForms

mutual

/-- The forms of a node. -/
def rangeForms : Node → RangeForms
  | .scalar value => .plain (.ok (.scalar value))
  | .mapping entries => .ofEntries (rangeFormsOf entries)
  | .multiset elements =>
    .plain (do .ok (.multiset (Elements.ofList (← compareRangeAll elements))))
  | .sequence _ => .plain (.error (.rawSequence .rangeComparison))
termination_by structural node => node

/-- The forms of the values of a mapping. -/
def rangeFormsOf : Entries → List (Key × RangeForms)
  | [] => []
  | (key, value) :: rest => (key, rangeForms value) :: rangeFormsOf rest
termination_by structural entries => entries

/-- Turns ranges into comparisons in each element of a multiset. -/
def compareRangeAll : Elements → Except Fault (List Node)
  | [] => .ok []
  | element :: rest => do
    let element ← (rangeForms element).node
    let rest ← compareRangeAll rest
    .ok (element :: rest)
termination_by structural elements => elements

end

/-- Turns every range that is the value of an entry into two comparisons. -/
def compareRange (node : Node) : Except Fault Node := node.rangeForms.node

end Node

end FilterLang
