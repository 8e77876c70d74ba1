import FilterLang.Normal.Clause
import FilterLang.Normal.Range

/-!
# Normal forms

The normal form of a filter is what the passes make of it, each applied to the result of the one
before. A filter without normal form has the first fault that a pass meets.
-/

namespace FilterLang

/-- What a pass makes of a filter. -/
def Pass.apply : Pass → Node → Except Fault Node
  | .impliedRange => Node.expandRange
  | .rangeComparison => Node.compareRange
  | .impliedConjunction => Node.expandConjunction none

namespace Node

/-- Applies passes one after the other. -/
def applyAll (passes : List Pass) (node : Node) : Except Fault Node :=
  passes.foldlM (fun node pass => pass.apply node) node

/-- The normal form of a filter under a selection of passes. -/
def normalizeWith (selection : List Pass) (node : Node) : Except Fault Node :=
  applyAll (Pass.ordered selection) node

/-- The normal form of a filter. -/
def normalize (node : Node) : Except Fault Node := normalizeWith Pass.all node

end Node

end FilterLang
