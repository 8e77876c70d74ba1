import FilterLang.Proofs.Validation.Walk
import FilterLang.Validation.Walk

/-!
# What a walk reports

A walk only adds to its issues and never looks at them. Visiting a tree reports the findings in the
tree, in their order and each below the place where the walk stands, and leaves the walk at that
place (`visit_eq_collect`). A report after others is therefore the others followed by the report by
itself, and so is a whole chain of reports.
-/

namespace FilterLang

namespace Walk

/-- A walk after the report of findings in the tree where it stands. -/
def collect (walk : Walk) (findings : List Finding) : Walk :=
  { walk with
    issues := walk.issues ++ findings.map fun finding =>
      .ofFinding ⟨walk.position ++ finding.position, finding.problem⟩ }

variable {walk : Walk}

theorem collect_nil : walk.collect [] = walk := by
  simp [collect]

theorem collect_append (first second : List Finding) :
    walk.collect (first ++ second) = (walk.collect first).collect second := by
  simp [collect]

theorem report_eq_collect (problem : Problem) :
    walk.report problem = walk.collect [.here problem] := by
  simp [report, collect, Finding.here]

theorem reportAll_eq_collect (problems : List Problem) :
    walk.reportAll problems = walk.collect (problems.map .here) := by
  induction problems generalizing walk with
  | nil => exact collect_nil.symm
  | cons problem rest ih =>
      calc walk.reportAll (problem :: rest)
        _ = (walk.report problem).reportAll rest := rfl
        _ = (walk.collect [.here problem]).collect (rest.map .here) := by
            rw [ih, report_eq_collect]
        _ = walk.collect ((problem :: rest).map .here) := (collect_append _ _).symm

/-- What is found after a step down is found under that step once the step is taken back. -/
theorem leave_collect_enter (step : Step) (findings : List Finding) :
    ((walk.enter step).collect findings).leave = walk.collect (findings.map (.under step)) := by
  simp [enter, collect, leave, Finding.under]

end Walk

namespace View

variable {view : View}

theorem visitMembers_eq_collect {op : Operator} {field : Option String} {index : Nat} {walk : Walk}
    (members : Elements) :
    view.visitMembers op field index walk members =
      walk.collect (view.membershipFindings op field index members) := by
  induction members generalizing index walk with
  | nil => exact Walk.collect_nil.symm
  | cons member rest ih =>
      rw [visitMembers, membershipFindings, ih, Walk.reportAll_eq_collect, Walk.leave_collect_enter,
        ← Walk.collect_append]

/-- Visiting a tree reports the findings in it, wherever it stands. -/
def ReportsFindings (view : View) (node : Node) : Prop :=
  ∀ context walk, view.visit context walk node = walk.collect (view.findings context node)

/-- Visits the value of an entry, after the key has been entered. -/
def visitAt (view : View) (enclosing : Option Operator) (context : Context) (walk : Walk)
    (entry : Key × Node) : Walk :=
  let judged := walk.reportAll (view.keyProblems enclosing context entry.1 entry.2)
  match entry.1, entry.2.scalar? with
  | .field field, some scalar =>
    if view.hasField field then judged.reportAll (view.valueProblems field scalar) else judged
  | _, _ => view.visit (view.contextAfter context entry.1) judged entry.2

theorem visitAt_eq_collect {enclosing : Option Operator} {context : Context} {walk : Walk}
    {entry : Key × Node} (inside : view.ReportsFindings entry.2) :
    view.visitAt enclosing context walk entry =
      walk.collect (view.findingsAt enclosing context entry) := by
  rcases entry with ⟨key, value⟩
  rw [visitAt, findingsAt, Walk.collect_append, Walk.reportAll_eq_collect]
  cases key with
  | operator op => exact inside _ _
  | field field =>
      cases value.scalar? with
      | none => exact inside _ _
      | some scalar =>
          by_cases known : view.hasField field = true
          · simp [known, Walk.reportAll_eq_collect]
          · simp [known, Walk.collect_nil]

theorem visitEntries_eq_collect {enclosing : Option Operator} {context : Context} {walk : Walk}
    {entries : Entries} (each : ∀ entry ∈ entries, view.ReportsFindings entry.2) :
    view.visitEntries enclosing context walk entries =
      walk.collect (view.entryFindings enclosing context entries) := by
  induction entries generalizing context walk with
  | nil => exact Walk.collect_nil.symm
  | cons entry rest ih =>
      rw [List.forall_mem_cons] at each
      have first : view.visitEntries enclosing context walk (entry :: rest) =
          view.visitEntries enclosing (view.contextAfter context entry.1)
            (view.visitAt enclosing context (walk.enter (.key entry.1)) entry).leave rest := rfl
      rw [first, ih each.2, visitAt_eq_collect each.1, Walk.leave_collect_enter,
        ← Walk.collect_append, entryFindings_cons]

theorem visitClauses_eq_collect {op : Operator} {context : Context} {index : Nat} {walk : Walk}
    {clauses : Elements} (each : ∀ clause ∈ clauses, view.ReportsFindings clause) :
    view.visitClauses op context index walk clauses =
      walk.collect (view.clauseFindings op context index clauses) := by
  induction clauses generalizing index walk with
  | nil => exact Walk.collect_nil.symm
  | cons clause rest ih =>
      rw [List.forall_mem_cons] at each
      rw [visitClauses, clauseFindings, ih each.2, Walk.reportAll_eq_collect, each.1,
        ← Walk.collect_append, Walk.leave_collect_enter, ← Walk.collect_append]

theorem visit_eq_collect (node : Node) : view.ReportsFindings node := by
  induction node using Node.induction with
  | scalar value =>
      intro context walk
      exact Walk.reportAll_eq_collect _
  | mapping entries ih =>
      intro context walk
      exact visitEntries_eq_collect ih
  | sequence items ih =>
      intro context walk
      exact Walk.report_eq_collect _
  | multiset elements ih =>
      intro context walk
      rw [visit, findings]
      cases context.operator with
      | none => exact Walk.report_eq_collect _
      | some op =>
          by_cases logical : op.isLogical = true
          · simpa [logical] using visitClauses_eq_collect ih
          · by_cases membership : op.isMembership = true
            · by_cases outside : context.field.isNone = true
              · simp [logical, membership, outside, visitMembers_eq_collect,
                  Walk.report_eq_collect, ← Walk.collect_append]
              · simp [logical, membership, outside, visitMembers_eq_collect]
            · simp [logical, membership, Walk.report_eq_collect]

/-- A report holds the prior issues and after them the findings in the filter. -/
theorem validateWith_eq (view : View) (prior : List Issue) (filter : Node) :
    view.validateWith prior filter =
      ⟨prior ++ (view.filterFindings filter).map Issue.ofFinding⟩ := by
  rw [validateWith, filterFindings, visit_eq_collect filter]
  cases filter.isMapping with
  | true => simp [Walk.collect]
  | false => simp [Walk.collect, Walk.report_eq_collect, Finding.here]

theorem validate_eq (view : View) (filter : Node) :
    view.validate filter = ⟨(view.filterFindings filter).map Issue.ofFinding⟩ :=
  view.validateWith_eq [] filter

/-- The report of several views on one filter: each continues the report of the one before. -/
def validateAll (views : List View) (prior : List Issue) (filter : Node) : Report :=
  views.foldl (fun report view => view.validateWith report.issues filter) ⟨prior⟩

theorem issues_validateWith {prior : List Issue} {filter : Node} :
    (view.validateWith prior filter).issues = prior ++ (view.validate filter).issues := by
  rw [validateWith_eq, validate_eq]

theorem issues_validateAll (views : List View) (prior : List Issue) (filter : Node) :
    (validateAll views prior filter).issues =
      prior ++ views.flatMap fun view => (view.validate filter).issues := by
  induction views generalizing prior with
  | nil => simp [validateAll]
  | cons view rest ih =>
      have chained : validateAll (view :: rest) prior filter =
          validateAll rest (view.validateWith prior filter).issues filter := rfl
      rw [chained, ih, issues_validateWith, List.flatMap_cons, List.append_assoc]

/-- Reports in a chain neither lose nor influence issues: a report after prior issues is these and
then the report by itself, a chain of reports is all of them one after the other, and it is valid
exactly if there are no prior issues and every view of the chain finds the filter valid. -/
theorem validate_chained (filter : Node) :
    (∀ (view : View) (prior : List Issue),
      (view.validateWith prior filter).issues = prior ++ (view.validate filter).issues) ∧
    ∀ (views : List View) (prior : List Issue),
      (validateAll views prior filter).issues =
          prior ++ views.flatMap (fun view => (view.validate filter).issues) ∧
        ((validateAll views prior filter).isValid = true ↔
          prior = [] ∧ ∀ view ∈ views, (view.validate filter).isValid = true) := by
  refine ⟨fun view prior => issues_validateWith, ?_⟩
  intro views prior
  have chained := issues_validateAll views prior filter
  refine ⟨chained, ?_⟩
  rw [Report.isValid, chained, List.isEmpty_iff, List.append_eq_nil_iff, List.flatMap_eq_nil_iff]
  simp [Report.isValid]

end View

end FilterLang
