import FilterLang.Proofs.Filter.Subtree
import FilterLang.Proofs.Filter.Traversal
import FilterLang.Proofs.Validation.Reporting
import Mathlib.Data.Option.Basic

/-!
# Views that answer alike

Validation sees the datasets of a view through seven questions only. Two views that answer them
alike find the same in every tree (`View.Alike.findings`), so that they give the same reports. The
answers depend on the declarations of the datasets in a view and on what the first of them names as
foreign (`View.alike_of_datasets`).
-/

namespace FilterLang

/-- Two declarations of a field admit the same values and the same comparisons. -/
structure Field.Agrees (first second : Field) : Prop where
  type : first.type = second.type
  operators : Option.Rel (fun admitted others => ∀ op, op ∈ admitted ↔ op ∈ others)
    first.operators second.operators
  limits : first.limits = second.limits

namespace Dataset

/-- Two datasets declare the same fields and admit the same operators. -/
structure Agrees (first second : Dataset) : Prop where
  fields : ∀ field, Option.Rel Field.Agrees (first.field? field) (second.field? field)
  operators : ∀ op, op ∈ first.operators ↔ op ∈ second.operators

/-- Two datasets of one name agree. -/
structure Alike (first second : Dataset) : Prop extends first.Agrees second where
  name : first.name = second.name

variable {first second : Dataset} {field : String}

theorem agrees_of_fields (sameFields : first.fields = second.fields)
    (sameOperators : ∀ op, op ∈ first.operators ↔ op ∈ second.operators) : first.Agrees second := by
  refine ⟨?_, sameOperators⟩
  intro field
  rw [field?, field?, sameFields]
  cases second.fields.find? field with
  | none => exact .none
  | some declaration =>
      refine .some ⟨rfl, ?_, rfl⟩
      cases declaration.operators with
      | none => exact .none
      | some admitted => exact .some fun _ => Iff.rfl

theorem Agrees.hasField (agree : first.Agrees second) :
    first.hasField field = second.hasField field := by
  change (first.field? field).isSome = (second.field? field).isSome
  rcases cases_of_rel (agree.fields field) with
    ⟨declared, redeclared⟩ | ⟨_, _, declared, redeclared, _⟩
  · rw [declared, redeclared]
  · rw [declared, redeclared]
    rfl

theorem Agrees.hasOperator (agree : first.Agrees second) {op : Operator} :
    first.hasOperator op = second.hasOperator op := by
  rw [Bool.eq_iff_iff]
  simpa [Dataset.hasOperator] using agree.operators op

theorem Agrees.typeComplaints (agree : first.Agrees second) {value : Node} :
    first.typeComplaints field value = second.typeComplaints field value := by
  rcases cases_of_rel (agree.fields field) with
    ⟨declared, redeclared⟩ | ⟨_, _, declared, redeclared, same⟩
  · simp only [Dataset.typeComplaints, declared, redeclared]
  · simp only [Dataset.typeComplaints, declared, redeclared, same.type]

theorem Agrees.limitComplaints (agree : first.Agrees second) {value : Node} :
    first.limitComplaints field value = second.limitComplaints field value := by
  rcases cases_of_rel (agree.fields field) with
    ⟨declared, redeclared⟩ | ⟨_, _, declared, redeclared, same⟩
  · simp only [Dataset.limitComplaints, declared, redeclared]
  · cases scalar : value.scalar? with
    | none => simp only [Dataset.limitComplaints, declared, redeclared, scalar]
    | some scalar =>
        simp only [Dataset.limitComplaints, declared, redeclared, scalar, same.limits]

theorem Alike.operatorComplaints (alike : first.Alike second) {field : Option String}
    {op : Operator} :
    first.operatorComplaints field op = second.operatorComplaints field op := by
  cases field with
  | none => rfl
  | some field =>
      rcases cases_of_rel (alike.fields field) with
        ⟨declared, redeclared⟩ | ⟨_, _, declared, redeclared, same⟩
      · simp only [Dataset.operatorComplaints, declared, redeclared, Option.bind_none]
      · rcases cases_of_rel same.operators with
          ⟨admits, readmits⟩ | ⟨_, _, admits, readmits, sameOperators⟩
        · simp only [Dataset.operatorComplaints, declared, redeclared, Option.bind_some, admits,
            readmits]
        · simp only [Dataset.operatorComplaints, declared, redeclared, Option.bind_some, admits,
            readmits, List.contains_iff_mem, Bool.or_eq_true, sameOperators op, alike.name]

end Dataset

namespace View

/-- Two views answer alike whatever validation asks them. -/
structure Alike (first second : View) : Prop where
  name : first.name = second.name
  hasField : ∀ field, first.hasField field = second.hasField field
  hasOperator : ∀ op, first.hasOperator op = second.hasOperator op
  hasForeign : ∀ name, first.hasForeign name = second.hasForeign name
  typeComplaints : ∀ field value,
    first.typeComplaints field value = second.typeComplaints field value
  limitComplaints : ∀ field value,
    first.limitComplaints field value = second.limitComplaints field value
  operatorComplaints : ∀ field op,
    first.operatorComplaints field op = second.operatorComplaints field op

section Walk

variable {first second : View} {context : Context} {field : String}

theorem Alike.valueProblems (alike : first.Alike second) {value : Scalar} :
    first.valueProblems field value = second.valueProblems field value := by
  simp only [View.valueProblems, alike.typeComplaints, alike.limitComplaints]

theorem Alike.contextAfter (alike : first.Alike second) {key : Key} :
    first.contextAfter context key = second.contextAfter context key := by
  cases key with
  | operator op => rfl
  | field field => simp only [View.contextAfter, Context.afterField, alike.hasField]

theorem Alike.keyProblems (alike : first.Alike second) {enclosing : Option Operator} {key : Key}
    {value : Node} :
    first.keyProblems enclosing context key value =
      second.keyProblems enclosing context key value := by
  cases key with
  | operator op =>
      simp only [View.keyProblems, operatorProblems, foreignProblems, alike.hasOperator,
        alike.operatorComplaints, alike.name, alike.hasForeign]
  | field field => simp only [View.keyProblems, alike.hasField, alike.name]

theorem Alike.membershipFindings (alike : first.Alike second) {op : Operator}
    {field : Option String} {index : Nat} {elements : Elements} :
    first.membershipFindings op field index elements =
      second.membershipFindings op field index elements := by
  induction elements generalizing index with
  | nil => rfl
  | cons member rest ih =>
      have sameMember : first.memberProblems op field member =
          second.memberProblems op field member := by
        cases member <;> simp only [memberProblems, alike.valueProblems]
      simp only [View.membershipFindings, sameMember, ih]

theorem Alike.entryFindings (alike : first.Alike second) {enclosing : Option Operator}
    {entries : Entries}
    (inside : ∀ entry ∈ entries, ∀ context : Context,
      first.findings context entry.2 = second.findings context entry.2) :
    first.entryFindings enclosing context entries =
      second.entryFindings enclosing context entries := by
  induction entries generalizing context with
  | nil => rfl
  | cons entry rest ih =>
      rw [List.forall_mem_cons] at inside
      have sameEntry : first.findingsAt enclosing context entry =
          second.findingsAt enclosing context entry := by
        simp only [findingsAt, alike.keyProblems, alike.contextAfter, alike.hasField,
          alike.valueProblems, inside.1]
      rw [entryFindings_cons, entryFindings_cons, sameEntry, alike.contextAfter, ih inside.2]

theorem clauseFindings_congr {op : Operator} {index : Nat} {elements : Elements}
    (inside : ∀ element ∈ elements,
      first.findings context element = second.findings context element) :
    first.clauseFindings op context index elements =
      second.clauseFindings op context index elements := by
  induction elements generalizing index with
  | nil => rfl
  | cons clause rest ih =>
      rw [List.forall_mem_cons] at inside
      simp only [View.clauseFindings, inside.1, ih inside.2]

/-- Validation finds the same through two views that answer alike. -/
theorem Alike.findings (alike : first.Alike second) {node : Node} :
    first.findings context node = second.findings context node := by
  induction node generalizing context with
  | scalar scalar =>
      simp only [View.findings, operandProblems, alike.valueProblems]
  | sequence items => rfl
  | mapping entries ih =>
      exact alike.entryFindings fun entry present _ => ih entry present
  | multiset elements ih =>
      have sameClauses : ∀ op, first.clauseFindings op context 0 elements =
          second.clauseFindings op context 0 elements :=
        fun _ => clauseFindings_congr fun element present => ih element present
      simp only [View.findings, sameClauses, alike.membershipFindings]

theorem Alike.validate (alike : first.Alike second) {filter : Node} :
    first.validate filter = second.validate filter := by
  simp only [validate_eq, filterFindings, alike.findings]

end Walk

section Datasets

variable {first second : View}

variable {datasets others : List Dataset}

theorem find?_hasField_congr (alike : List.Forall₂ Dataset.Alike datasets others) (field : String) :
    Option.Rel Dataset.Alike (datasets.find? fun dataset => dataset.hasField field)
      (others.find? fun dataset => dataset.hasField field) := by
  induction alike with
  | nil => exact .none
  | cons here _ ih =>
      rw [List.find?_cons, List.find?_cons, here.hasField]
      split
      · exact .some here
      · exact ih

theorem any_hasOperator_congr (alike : List.Forall₂ Dataset.Alike datasets others) (op : Operator) :
    datasets.any (fun dataset => dataset.hasOperator op) =
      others.any fun dataset => dataset.hasOperator op := by
  induction alike with
  | nil => rfl
  | cons here _ ih => rw [List.any_cons, List.any_cons, here.hasOperator, ih]

/-- Views of datasets that are pairwise alike answer alike. -/
theorem alike_of_datasets (alike : List.Forall₂ Dataset.Alike first.datasets second.datasets)
    (sameForeigns : first.root.foreigns = second.root.foreigns) : first.Alike second := by
  have roots : first.root.Alike second.root := (List.forall₂_cons.mp alike).1
  have owners : ∀ field, (first.owner? field = none ∧ second.owner? field = none) ∨
      ∃ judge other, first.owner? field = some judge ∧ second.owner? field = some other ∧
        judge.Alike other :=
    fun field => cases_of_rel (find?_hasField_congr alike field)
  constructor
  · exact roots.name
  · intro field
    rcases owners field with ⟨unowned, alsoUnowned⟩ | ⟨_, _, owned, alsoOwned, _⟩
    · rw [hasField, hasField, unowned, alsoUnowned]
    · rw [hasField, hasField, owned, alsoOwned]
      rfl
  · exact any_hasOperator_congr alike
  · intro name
    rw [hasForeign, hasForeign, sameForeigns]
  · intro field value
    rcases owners field with ⟨unowned, alsoUnowned⟩ | ⟨_, _, owned, alsoOwned, same⟩
    · simp only [typeComplaints, unowned, alsoUnowned]
    · simp only [typeComplaints, owned, alsoOwned, same.typeComplaints]
  · intro field value
    rcases owners field with ⟨unowned, alsoUnowned⟩ | ⟨_, _, owned, alsoOwned, same⟩
    · simp only [limitComplaints, unowned, alsoUnowned]
    · simp only [limitComplaints, owned, alsoOwned, same.limitComplaints]
  · intro field op
    cases field with
    | none => rfl
    | some field =>
        rcases owners field with ⟨unowned, alsoUnowned⟩ | ⟨_, _, owned, alsoOwned, same⟩
        · simp only [operatorComplaints, Option.bind_some, unowned, alsoUnowned, Option.getD_none,
            roots.operatorComplaints]
        · simp only [operatorComplaints, Option.bind_some, owned, alsoOwned, Option.getD_some,
            same.operatorComplaints]

end Datasets

end View

end FilterLang
