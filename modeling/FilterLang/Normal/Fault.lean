import FilterLang.Normal.Pass

/-!
# Faults

The reasons why a filter has no normal form.
-/

namespace FilterLang

/-- Why a pass refuses a tree. -/
inductive Fault where
  /-- The pass met a sequence. -/
  | rawSequence (pass : Pass)
  /-- The keys of a mapping are of different categories. -/
  | mixedKeys (names : List String)
  /-- Several comparisons stand where no field encloses them. -/
  | missingField (operators : List String)
  deriving DecidableEq

/-- The text of a fault. -/
def Fault.message : Fault → String
  | .rawSequence pass =>
    "raw sequence reached the " ++ pass.name
      ++ " pass; arrays must be lifted into multisets first"
  | .mixedKeys names => "mapping mixes keys of different categories: " ++ ", ".intercalate names
  | .missingField operators =>
    "operators " ++ ", ".intercalate operators ++ " need an enclosing field"

end FilterLang
