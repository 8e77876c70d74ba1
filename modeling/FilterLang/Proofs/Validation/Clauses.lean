import FilterLang.Proofs.Normal.Bodies
import FilterLang.Proofs.Validation.Checked
import FilterLang.Proofs.Validation.Order

/-!
# Findings in well-formed clauses

What validation finds in an operator body, in a clause on a field and in a conjunction. A view asks
of an operator body that it admits each operator, as a whole and on the field above the body
(`View.AdmitsOn`), and that the operands pass the checks of that field. A view that restricts
operators in neither way (`View.Permissive`) asks for the operands only.
-/

namespace FilterLang

namespace Node

section Uniform

theorem IsOperand.uniform {op : Operator} {node : Node} (operand : IsOperand op node) :
    node.Uniform := by
  cases operand with
  | scalar value => exact uniform_scalar
  | set _ scalars =>
      rw [uniform_multiset]
      intro element among
      rcases scalars element among with ⟨value, rfl⟩
      exact uniform_scalar

theorem Comparisons.uniform {entries : Entries} (comparisons : Comparisons entries) :
    Uniform (.mapping entries) := by
  rw [uniform_mapping]
  refine ⟨.inl comparisons.operators, ?_⟩
  intro entry present
  rcases comparisons.comparison entry present with ⟨op, _, _, operand⟩
  exact operand.uniform

theorem RangedBody.uniform {node : Node} (body : RangedBody node) : node.Uniform := by
  cases body with
  | range start stop => simp [entry, Entries.Uniform, Entries.keys, Key.isOperator]
  | comparisons comparisons _ => exact comparisons.uniform

theorem PlainBody.uniform {node : Node} (body : PlainBody node) : node.Uniform := by
  cases body with
  | comparisons comparisons _ => exact comparisons.uniform

/-- No mapping in a well-formed clause mixes operators with fields. -/
theorem Clause.uniform {Body : Node → Prop} (bodies : ∀ node, Body node → node.Uniform)
    {node : Node} (clause : Clause Body node) : node.Uniform := by
  induction clause with
  | fields fields =>
      rw [uniform_mapping]
      refine ⟨.inr fields.notOperators, ?_⟩
      intro entry present
      rcases fields.value entry present with ⟨value, isScalar⟩ | body
      · rw [isScalar]
        exact uniform_scalar
      · exact bodies entry.2 body
  | logical _ logical multiset _ ih =>
      rw [uniform_mapping]
      refine ⟨.inl fun key present => Key.isOperator_of_category? (logical key present), ?_⟩
      intro entry present
      rcases multiset entry present with ⟨elements, isMultiset⟩
      rw [isMultiset, uniform_multiset]
      exact ih entry present elements isMultiset
  | structural _ structural _ ih =>
      rw [uniform_mapping]
      refine ⟨.inl fun key present => Key.isOperator_of_category? (structural key present), ?_⟩
      intro entry present
      cases composite : entry.2.isComposite with
      | true => exact ih entry present composite
      | false =>
          rcases exists_scalar composite with ⟨scalar, isScalar⟩
          rw [isScalar]
          exact uniform_scalar

end Uniform

end Node

theorem Operator.isLogical_of_category {op : Operator} (logical : op.category = .logical) :
    op.isLogical = true := by
  rw [category] at logical
  split at logical
  · next isLogical => exact isLogical
  · split at logical
    · cases logical
    · cases logical

theorem Operator.isComparison_of_category {op : Operator} (comparison : op.category = .comparison) :
    op.isComparison = true := by
  rw [category] at comparison
  split at comparison
  · cases comparison
  · split at comparison
    · next isComparison => exact isComparison
    · cases comparison

namespace View

open Node

variable {view : View} {context : Context} {enclosing : Option Operator}

section Operators

/-- The dataset that a field belongs to admits an operator on it. -/
def AdmitsOn (view : View) (field : String) (op : Operator) : Prop :=
  ∀ owner declaration admitted, view.owner? field = some owner →
    owner.field? field = some declaration → declaration.operators = some admitted → op ∈ admitted

theorem admitsOn_iff {field : String} {op : Operator} {owner : Dataset} {declaration : Field}
    (owned : view.owner? field = some owner) (declared : owner.field? field = some declaration) :
    view.AdmitsOn field op ↔
      ∀ admitted, declaration.operators = some admitted → op ∈ admitted := by
  constructor
  · intro admits admitted restricted
    exact admits owner declaration admitted owned declared restricted
  · rintro admits other otherDeclaration admitted sameOwner sameDeclaration restricted
    rw [owned, Option.some.injEq] at sameOwner
    subst sameOwner
    rw [declared, Option.some.injEq] at sameDeclaration
    subst sameDeclaration
    exact admits admitted restricted

/-- Outside every field, an operator has only to be admitted by the view. -/
theorem operatorProblems_outside_eq_nil {op : Operator} :
    view.operatorProblems ⟨enclosing, none⟩ op = [] ↔ view.hasOperator op = true := by
  have noComplaints : view.operatorComplaints none op = [] := rfl
  simp [operatorProblems, noComplaints]

theorem operatorProblems_comparison_eq_nil {field : String} (known : view.hasField field = true)
    {op : Operator} (comparison : op.isComparison = true) :
    view.operatorProblems ⟨enclosing, some field⟩ op = [] ↔
      view.hasOperator op = true ∧ view.AdmitsOn field op := by
  rcases exists_owner known with ⟨owner, declaration, owned, declared⟩
  have noComplaints : view.operatorComplaints (some field) op = [] ↔ view.AdmitsOn field op := by
    rw [admitsOn_iff owned declared]
    simp only [operatorComplaints, Option.bind_some, owned, Option.getD_some,
      Dataset.operatorComplaints, declared]
    cases restricted : declaration.operators with
    | none => simp
    | some admitted => simp [comparison]
  rw [operatorProblems]
  split
  · next admitted => simp [admitted, noComplaints]
  · next refused => simp [refused]

end Operators

/-- A view that admits every operator, and every comparison on every field. -/
structure Permissive (view : View) : Prop where
  admitted : ∀ op, view.hasOperator op = true
  unrestricted : ∀ dataset ∈ view.datasets, ∀ field declaration,
    dataset.field? field = some declaration → declaration.operators = none

theorem Permissive.admitsOn (permissive : view.Permissive) (field : String) (op : Operator) :
    view.AdmitsOn field op := by
  intro owner declaration admitted owned declared restricted
  rw [owner?] at owned
  have present := List.mem_of_find?_eq_some owned
  have unrestricted := permissive.unrestricted owner present field declaration declared
  simp [unrestricted] at restricted

theorem Permissive.operatorProblems_eq_nil (permissive : view.Permissive) (op : Operator) :
    view.operatorProblems context op = [] := by
  have noComplaints : ∀ dataset ∈ view.datasets,
      dataset.operatorComplaints context.field op = [] := by
    intro dataset present
    cases context.field with
    | none => rfl
    | some field =>
        cases declared : dataset.field? field with
        | none => simp [Dataset.operatorComplaints, declared]
        | some declaration =>
            have unrestricted := permissive.unrestricted dataset present field declaration declared
            simp [Dataset.operatorComplaints, declared, unrestricted]
  have ofOwner : view.operatorComplaints context.field op = [] := by
    rw [operatorComplaints]
    cases owned : context.field.bind view.owner? with
    | none => exact noComplaints view.root List.mem_cons_self
    | some owner =>
        rcases Option.bind_eq_some_iff.mp owned with ⟨field, _, found⟩
        rw [owner?] at found
        exact noComplaints owner (List.mem_of_find?_eq_some found)
  simp [operatorProblems, permissive.admitted op, ofOwner]

section Entries

theorem findings_entry_eq_nil {key : Key} {value : Node} {field : Option String} :
    view.findings ⟨enclosing, field⟩ (entry key value) = [] ↔
      view.findingsAt enclosing ⟨enclosing, field⟩ (key, value) = [] := by
  simp only [entry, findings, entryFindings_singleton, List.map_eq_nil_iff]

theorem findings_mapping_eq_nil {entries : Entries} (uniform : Entries.Uniform entries)
    {field : Option String} :
    view.findings ⟨enclosing, field⟩ (.mapping entries) = [] ↔
      ∀ entry ∈ entries, view.findingsAt enclosing ⟨enclosing, field⟩ entry = [] := by
  simp only [findings, entryFindings_eq_nil uniform]

/-- A value is the name of a foreign dataset. -/
def NamesForeign (view : View) (value : Node) : Prop :=
  ∃ name, value = .scalar (.text name) ∧ view.hasForeign name = true

/-- Outside every field, an operator has to be admitted, and `dataset` to name a foreign dataset
directly under `foreign`. -/
theorem findingsAt_outside_eq_nil {outer : Option Operator} {op : Operator} {value : Node} :
    view.findingsAt enclosing ⟨outer, none⟩ (.operator op, value) = [] ↔
      (view.hasOperator op = true ∧
        (op = .dataset → enclosing = some .foreign → view.NamesForeign value)) ∧
        view.findings ⟨some op, none⟩ value = [] := by
  have noForeignProblems :
      (if op = .dataset ∧ enclosing = some .foreign then view.foreignProblems value else []) = [] ↔
        (op = .dataset → enclosing = some .foreign → view.NamesForeign value) := by
    split
    · next named => simp [named, NamesForeign, foreignProblems_eq_nil]
    · next unnamed =>
      simp only [true_iff]
      intro isDataset isForeign
      exact absurd ⟨isDataset, isForeign⟩ unnamed
  rw [findingsAt_operator, List.append_eq_nil_iff, List.map_eq_nil_iff, keyProblems,
    List.append_eq_nil_iff, operatorProblems_outside_eq_nil, noForeignProblems]

/-- An operator that names no dataset is no problem by itself. -/
theorem Permissive.findingsAt_operator_eq_nil (permissive : view.Permissive) {op : Operator}
    (other : op ≠ .dataset) {value : Node} :
    view.findingsAt enclosing context (.operator op, value) = [] ↔
      view.findings ⟨some op, context.field⟩ value = [] := by
  simp only [findingsAt_operator, keyProblems, permissive.operatorProblems_eq_nil, other,
    false_and, if_false, List.append_nil, List.map_nil, List.nil_append]

end Entries

section Bodies

variable {name : String}

theorem operandFits_scalar {op : Operator} (takes : op.takesFieldOperand = true)
    {scalar : Scalar} : view.OperandFits name op (.scalar scalar) ↔ view.Fits name scalar := by
  constructor
  · intro operand
    exact operand.scalar takes scalar rfl
  · intro fits
    constructor
    · rintro _ other same
      cases same
      exact fits
    · rintro _ elements same
      cases same

/-- Under a known field, what is found in an operand is that it does not fit the field. -/
theorem findings_operand_eq_nil (known : view.hasField name = true) {op : Operator}
    {operand : Node} (isOperand : IsOperand op operand) :
    view.findings ⟨some op, some name⟩ operand = [] ↔ view.OperandFits name op operand := by
  constructor
  · exact operandFits_of_findings known
  · intro fits
    cases isOperand with
    | scalar scalar =>
        simp only [findings, operandProblems, List.map_eq_nil_iff]
        split
        · next takes => exact (valueProblems_eq_nil known).mpr (fits.scalar takes scalar rfl)
        · rfl
    | @set elements membership scalars =>
        subst membership
        change view.membershipFindings .among (some name) 0 elements = []
        rw [membershipFindings_eq_nil]
        intro element present
        rcases fits.members rfl elements rfl element present with ⟨scalar, rfl, elementFits⟩
        exact (valueProblems_eq_nil known).mpr elementFits

/-- What is found in comparisons under a known field is an operator that is not admitted, or an
operand that does not fit the field. -/
theorem findings_comparisons_eq_nil (known : view.hasField name = true) {entries : Entries}
    (comparisons : Comparisons entries) :
    view.findings ⟨enclosing, some name⟩ (.mapping entries) = [] ↔
      ∀ op operand, (.operator op, operand) ∈ entries →
        (view.hasOperator op = true ∧ view.AdmitsOn name op) ∧ view.OperandFits name op operand := by
  have perEntry : ∀ op operand, (.operator op, operand) ∈ entries →
      (view.findingsAt enclosing ⟨enclosing, some name⟩ (.operator op, operand) = [] ↔
        (view.hasOperator op = true ∧ view.AdmitsOn name op) ∧
          view.OperandFits name op operand) := by
    intro op operand present
    rcases comparisons.comparison _ present with ⟨_, same, comparison, isOperand⟩
    cases same
    have noDataset : op ≠ .dataset := by
      rintro rfl
      cases comparison
    rw [findingsAt_operator, List.append_eq_nil_iff, List.map_eq_nil_iff, keyProblems,
      if_neg (by simp [noDataset]), List.append_nil,
      operatorProblems_comparison_eq_nil known (Operator.isComparison_of_category comparison),
      findings_operand_eq_nil known isOperand]
  rw [findings_mapping_eq_nil (.inl comparisons.operators)]
  constructor
  · intro clean op operand present
    exact (perEntry op operand present).mp (clean _ present)
  · rintro fits ⟨key, operand⟩ present
    rcases comparisons.comparison _ present with ⟨op, same, _, _⟩
    cases same
    exact (perEntry op operand present).mpr (fits op operand present)

/-- A permissive view finds in comparisons only operands that do not fit the field. -/
theorem Permissive.findings_comparisons_eq_nil (permissive : view.Permissive)
    (known : view.hasField name = true) {entries : Entries} (comparisons : Comparisons entries) :
    view.findings ⟨enclosing, some name⟩ (.mapping entries) = [] ↔
      ∀ op operand, (.operator op, operand) ∈ entries → view.OperandFits name op operand := by
  have admits : ∀ op, view.hasOperator op = true ∧ view.AdmitsOn name op := fun op =>
    ⟨permissive.admitted op, permissive.admitsOn name op⟩
  simp only [View.findings_comparisons_eq_nil known comparisons, admits, true_and]

/-- The same for a field together with its comparisons. -/
theorem Permissive.findingsAt_comparisons_eq_nil (permissive : view.Permissive)
    {entries : Entries} (comparisons : Comparisons entries) :
    view.findingsAt enclosing context (.field name, .mapping entries) = [] ↔
      view.hasField name = true ∧
        ∀ op operand, (.operator op, operand) ∈ entries → view.OperandFits name op operand := by
  rw [findingsAt_field_eq_nil]
  apply and_congr_right
  intro known
  rw [permissive.findings_comparisons_eq_nil known comparisons]
  simp [isComposite]

/-- A permissive view asks of two comparisons with scalars that the scalars fit the field. -/
theorem Permissive.findings_bounds_eq_nil (permissive : view.Permissive)
    (known : view.hasField name = true) {entries : Entries} (comparisons : Comparisons entries)
    {lower upper : Operator} (lowerTakes : lower.takesFieldOperand = true)
    (upperTakes : upper.takesFieldOperand = true) {start stop : Scalar}
    (lowerPresent : (.operator lower, .scalar start) ∈ entries)
    (upperPresent : (.operator upper, .scalar stop) ∈ entries)
    (alone : ∀ entry ∈ entries,
      entry = (.operator lower, .scalar start) ∨ entry = (.operator upper, .scalar stop)) :
    view.findings ⟨enclosing, some name⟩ (.mapping entries) = [] ↔
      view.Fits name start ∧ view.Fits name stop := by
  rw [permissive.findings_comparisons_eq_nil known comparisons, ← operandFits_scalar lowerTakes,
    ← operandFits_scalar upperTakes]
  constructor
  · intro fits
    exact ⟨fits lower _ lowerPresent, fits upper _ upperPresent⟩
  · rintro ⟨lowerFits, upperFits⟩ op operand present
    rcases alone _ present with same | same
    · cases same
      exact lowerFits
    · cases same
      exact upperFits

end Bodies

section Conjunctions

/-- The members of an `and` are clauses under it. -/
theorem findings_and_eq_nil (admitted : view.hasOperator .and = true) {clauses : List Node} :
    view.findings ⟨enclosing, none⟩ (Node.and clauses) = [] ↔
      ∀ clause ∈ Elements.ofList clauses,
        clause.isMapping = true ∧ view.findings ⟨some .and, none⟩ clause = [] := by
  rw [Node.and, findings_entry_eq_nil, findingsAt_outside_eq_nil, findings_logical rfl,
    clauseFindings_eq_nil]
  simp [admitted]

/-- What is found in a clause does not depend on the operator above it. -/
def Steady (view : View) (clause : Node) : Prop :=
  ∀ first second, view.findings ⟨first, none⟩ clause = [] → view.findings ⟨second, none⟩ clause = []

/-- Where nothing is found in values, nothing is found in those of them that are kept. -/
theorem findings_ofList_eq_nil {values : List Node} (proper : ∀ value ∈ values, value.Proper)
    (uniform : ∀ value ∈ values, value.Uniform) :
    (∀ value ∈ Elements.ofList values, view.findings context value = []) ↔
      ∀ value ∈ values, view.findings context value = [] := by
  constructor
  · intro clean value present
    rcases Elements.exists_kept present with ⟨kept, among, rfl | same⟩
    · exact clean kept among
    · have keptUniform := uniform kept (Elements.mem_of_mem_ofList among)
      have sameTree : SameTree value kept := ⟨proper value present, same⟩
      exact findings_eq_nil_of_equal keptUniform sameTree.symm (clean kept among)
  · intro clean value present
    exact clean value (Elements.mem_of_mem_ofList present)

/-- Nothing is found in a conjunction exactly if nothing is found in its clauses. -/
theorem Permissive.findings_conjunction_eq_nil (permissive : view.Permissive)
    {clauses : List Node} (clause : ∀ clause ∈ clauses, Clause PlainBody clause)
    (proper : ∀ clause ∈ clauses, clause.Proper) (steady : ∀ clause ∈ clauses, view.Steady clause)
    (enclosing : Option Operator) :
    view.findings ⟨enclosing, none⟩ (conjunction clauses) = [] ↔
      ∀ clause ∈ clauses, view.findings ⟨enclosing, none⟩ clause = [] := by
  have uniform : ∀ clause ∈ clauses, clause.Uniform := by
    intro member present
    exact (clause member present).uniform fun _ => PlainBody.uniform
  have explicit : view.findings ⟨enclosing, none⟩ (Node.and clauses) = [] ↔
      ∀ clause ∈ clauses, view.findings ⟨enclosing, none⟩ clause = [] := by
    have kept : (∀ value ∈ Elements.ofList clauses, view.findings ⟨some .and, none⟩ value = []) ↔
        ∀ value ∈ clauses, view.findings ⟨some .and, none⟩ value = [] :=
      findings_ofList_eq_nil proper uniform
    rw [findings_and_eq_nil (permissive.admitted .and)]
    constructor
    · intro clean member present
      have cleanKept := kept.mp fun value among => (clean value among).2
      exact steady member present _ _ (cleanKept member present)
    · intro clean value present
      have among := Elements.mem_of_mem_ofList present
      exact ⟨(clause value among).isMapping, steady value among _ _ (clean value among)⟩
  rcases clauses with _ | ⟨first, _ | ⟨second, rest⟩⟩
  · exact explicit
  · simp [conjunction]
  · exact explicit

end Conjunctions

end View

end FilterLang
