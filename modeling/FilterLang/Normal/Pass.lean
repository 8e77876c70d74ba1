/-!
# Passes

Normalization runs up to three passes over a filter. A caller chooses which of them run; their order
is fixed.
-/

namespace FilterLang

/-- A pass. -/
inductive Pass where
  /-- Puts two bounds that stand beside each other under `between`. -/
  | impliedRange
  /-- Turns the bounds of a range into comparisons. -/
  | rangeComparison
  /-- Splits a mapping that carries several constraints into clauses of an `and`. -/
  | impliedConjunction
  deriving DecidableEq

/-- No pass has this name. -/
structure UnknownPass where
  /-- The name that was given. -/
  name : String
  deriving DecidableEq

/-- The text of an unknown pass name. -/
def UnknownPass.message (unknown : UnknownPass) : String :=
  "invalid argument: unknown pass '" ++ unknown.name ++ "'"

namespace Pass

/-- Every pass, in the order in which they run. -/
def all : List Pass := [.impliedRange, .rangeComparison, .impliedConjunction]

/-- The name of a pass. -/
def name : Pass → String
  | .impliedRange => "expand_implicit_range"
  | .rangeComparison => "rewrite_range_to_comparison"
  | .impliedConjunction => "expand_implicit_conjunction"

/-- The pass with a given name. -/
def ofName (name : String) : Except UnknownPass Pass :=
  match all.find? fun pass => pass.name == name with
  | some pass => .ok pass
  | none => .error ⟨name⟩

/-- The passes with given names. The first unknown name is refused. -/
def ofNames : List String → Except UnknownPass (List Pass)
  | [] => .ok []
  | name :: rest => do
    let pass ← ofName name
    let passes ← ofNames rest
    .ok (pass :: passes)

/-- The passes of a selection, each once and in the order in which they run. -/
def ordered (selection : List Pass) : List Pass := all.filter selection.contains

@[simp]
theorem mem_ordered {selection : List Pass} {pass : Pass} :
    pass ∈ ordered selection ↔ pass ∈ selection := by
  cases pass <;> simp [ordered, all]

@[simp]
theorem ofName_name (pass : Pass) : ofName pass.name = .ok pass := by
  cases pass <;> rfl

end Pass

end FilterLang
