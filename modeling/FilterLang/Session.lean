import FilterLang.Dataset.Registry
import FilterLang.Normal.Form
import FilterLang.Validation.Walk

/-!
# Sessions

A session checks filters against the datasets of a registry: it normalizes a filter and validates
the normal form. A filter that cannot be evaluated is an error; one that is evaluated is either
accepted or rejected.
-/

namespace FilterLang

/-- The verdict on a filter that was evaluated. -/
inductive Outcome where
  /-- The filter is valid, and this is its normal form. -/
  | accepted (dataset : String) (filter : Node)
  /-- The filter is not valid, for these reasons. -/
  | rejected (dataset : String) (errors : List String)

/-- Why a filter cannot be evaluated. -/
inductive SessionError where
  /-- The text is not JSON. -/
  | unreadable
  /-- The dataset cannot be resolved. -/
  | registry (error : RegistryError)
  /-- The filter has no normal form. -/
  | malformed (fault : Fault)
  deriving DecidableEq

/-- The text of a rejection. -/
def rejectionText (dataset : String) (errors : List String) : String :=
  "filter rejected by dataset '" ++ dataset ++ "' (" ++ toString errors.length ++ " issues)"

/-- A registry and the passes that filters go through. -/
structure Session where
  /-- The datasets. -/
  registry : Registry
  /-- The selected passes. -/
  passes : List Pass

namespace Session

/-- The session that runs every pass. -/
def ofRegistry (registry : Registry) : Session := ⟨registry, Pass.all⟩

/-- The verdict of a view on a filter in normal form. -/
def judge (view : View) (filter : Node) : Outcome :=
  let report := view.validate filter
  if report.isValid then .accepted view.name filter else .rejected view.name report.messages

/-- Checks a filter against a dataset, or against the default dataset if none is named. -/
def checkNode (session : Session) (dataset : Option String) (filter : Node) :
    Except SessionError Outcome := do
  let view ← (session.registry.viewOf dataset).mapError .registry
  let filter ← (filter.normalizeWith session.passes).mapError .malformed
  .ok (judge view filter)

/-- Checks filter text. -/
def check (session : Session) (dataset : Option String) (text : String) :
    Except SessionError Outcome :=
  match Node.parse? text with
  | none => .error .unreadable
  | some filter => session.checkNode dataset filter

end Session

end FilterLang
