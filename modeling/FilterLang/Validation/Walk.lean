import FilterLang.Validation.Report

/-!
# Walks

Validation walks over a filter. A walk holds the steps from the root to the node that it visits, and
every issue so far; it may start out with the issues of an earlier validation. What it visits is
judged in the context that is handed down to it.
-/

namespace FilterLang

/-- How far a walk has come. -/
structure Walk where
  /-- The steps from the root to where the walk stands. -/
  position : Position
  /-- The issues in the order of their discovery. -/
  issues : List Issue

namespace Walk

/-- Reports a problem where the walk stands. -/
def report (walk : Walk) (problem : Problem) : Walk :=
  { walk with issues := walk.issues ++ [.ofFinding ⟨walk.position, problem⟩] }

/-- Reports problems one after the other. -/
def reportAll (walk : Walk) (problems : List Problem) : Walk := problems.foldl report walk

/-- Takes a step down. -/
def enter (walk : Walk) (step : Step) : Walk := { walk with position := walk.position ++ [step] }

/-- Takes the last step back. -/
def leave (walk : Walk) : Walk := { walk with position := walk.position.dropLast }

end Walk

namespace View

/-- Visits the members of a list of admitted values, of which the first has the given index. -/
def visitMembers (view : View) (op : Operator) (field : Option String) (index : Nat) (walk : Walk) :
    Elements → Walk
  | [] => walk
  | member :: rest =>
    let visited := (walk.enter (.index index)).reportAll (view.memberProblems op field member)
    view.visitMembers op field (index + 1) visited.leave rest

mutual

/-- Visits a tree. -/
def visit (view : View) (context : Context) (walk : Walk) : Node → Walk
  | .scalar value => walk.reportAll (view.operandProblems context value)
  | .mapping entries => view.visitEntries context.operator context walk entries
  | .multiset elements =>
    match context.operator with
    | none => walk.report .multisetAlone
    | some op =>
      if op.isLogical then view.visitClauses op context 0 walk elements
      else if op.isMembership then
        let start := if context.field.isNone then walk.report (.membershipWithoutField op) else walk
        view.visitMembers op context.field 0 start elements
      else walk.report (.multisetOperand op)
  | .sequence _ => walk.report .sequence
termination_by structural node => node

/-- Visits the entries of a mapping under an operator. A scalar is compared with the field that it
is bound to, and everything else is visited. -/
def visitEntries (view : View) (enclosing : Option Operator) (context : Context) (walk : Walk) :
    Entries → Walk
  | [] => walk
  | (key, value) :: rest =>
    let inner := view.contextAfter context key
    let entered := walk.enter (.key key)
    let judged := entered.reportAll (view.keyProblems enclosing context key value)
    let visited := match key, value.scalar? with
      | .field field, some scalar =>
        if view.hasField field then judged.reportAll (view.valueProblems field scalar) else judged
      | _, _ => view.visit inner judged value
    view.visitEntries enclosing inner visited.leave rest
termination_by structural entries => entries

/-- Visits a list of clauses, of which the first has the given index. -/
def visitClauses (view : View) (op : Operator) (context : Context) (index : Nat) (walk : Walk) :
    Elements → Walk
  | [] => walk
  | clause :: rest =>
    let judged := (walk.enter (.index index)).reportAll (clauseProblems op clause)
    let visited := view.visit context judged clause
    view.visitClauses op context (index + 1) visited.leave rest
termination_by structural elements => elements

end

/-- The report on a filter that continues with the issues that were found before. -/
def validateWith (view : View) (prior : List Issue) (filter : Node) : Report :=
  let start : Walk := ⟨[], prior⟩
  let judged := if filter.isMapping then start else start.report (.rootNotMapping filter.kind)
  ⟨(view.visit .root judged filter).issues⟩

/-- The report on a filter. -/
def validate (view : View) (filter : Node) : Report := view.validateWith [] filter

end View

end FilterLang
