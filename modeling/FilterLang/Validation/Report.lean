import FilterLang.Validation.Findings

/-!
# Reports

A report lists the issues of a filter in the order of their discovery.
-/

namespace FilterLang

/-- A problem as it is reported. -/
structure Issue where
  /-- The kind of the problem. -/
  kind : ProblemKind
  /-- The written position of the problem. -/
  path : String
  /-- The text of the problem. -/
  message : String
  deriving DecidableEq

namespace Issue

/-- The issue of a finding. -/
def ofFinding (finding : Finding) : Issue :=
  ⟨finding.problem.kind, finding.position.text, finding.problem.message⟩

/-- An issue as one text: the position and the problem, or the problem alone at the root. -/
def text (issue : Issue) : String :=
  if issue.path.isEmpty then issue.message else issue.path ++ ": " ++ issue.message

end Issue

/-- The issues of a filter. -/
structure Report where
  /-- The issues in the order of their discovery. -/
  issues : List Issue

namespace Report

/-- Whether no issue was found. -/
def isValid (report : Report) : Bool := report.issues.isEmpty

/-- The issues as texts. -/
def messages (report : Report) : List String := report.issues.map Issue.text

/-- Whether an issue is structural. -/
def hasStructuralFaults (report : Report) : Bool :=
  report.issues.any fun issue => issue.kind.problemClass = .structural

end Report

end FilterLang
