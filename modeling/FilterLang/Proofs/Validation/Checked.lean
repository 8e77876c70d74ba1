import FilterLang.Proofs.Filter.Subtree
import FilterLang.Proofs.Validation.Reporting

/-!
# What a valid filter has gone through

The walk of validation leaves subtrees out: a multiset that no operator takes, an admitted value
that is no scalar, a sequence, a scalar without context. `View.Checked` says what has to hold of the
keys, the values and the operands of a tree, whether or not the walk comes there. Since the walk
reports whatever it leaves out, a tree in which it finds nothing is checked all over, under every
context.
-/

namespace FilterLang

namespace View

variable {view : View} {context : Context}

section Values

/-- A scalar passes the checks of the dataset that a field belongs to. -/
def Fits (view : View) (field : String) (scalar : Scalar) : Prop :=
  ∃ owner declaration, view.owner? field = some owner ∧ owner.field? field = some declaration ∧
    declaration.type.accepts scalar = true ∧ declaration.limits.violations scalar = []

theorem exists_owner {field : String} (known : view.hasField field = true) :
    ∃ owner declaration, view.owner? field = some owner ∧
      owner.field? field = some declaration := by
  rcases Option.isSome_iff_exists.mp known with ⟨owner, owned⟩
  have found := owned
  rw [owner?] at found
  have declared := List.find?_some found
  rcases Option.isSome_iff_exists.mp declared with ⟨declaration, declares⟩
  exact ⟨owner, declaration, owned, declares⟩

theorem valueProblems_eq_nil {field : String} (known : view.hasField field = true)
    {scalar : Scalar} : view.valueProblems field scalar = [] ↔ view.Fits field scalar := by
  rcases exists_owner known with ⟨owner, declaration, owned, declared⟩
  have fits : view.Fits field scalar ↔
      declaration.type.accepts scalar = true ∧ declaration.limits.violations scalar = [] := by
    simp [Fits, owned, declared]
  rw [fits]
  simp only [valueProblems, typeComplaints, limitComplaints, owned, Dataset.typeComplaints,
    Dataset.limitComplaints, declared, Node.scalar?, Option.any_some]
  by_cases accepted : declaration.type.accepts scalar = true
  · simp [accepted]
  · simp [accepted]

end Values

section Parts

/-- The operand of a comparison passes the checks of the field above it. -/
structure OperandFits (view : View) (field : String) (op : Operator) (operand : Node) : Prop where
  scalar : op.takesFieldOperand = true → ∀ scalar, operand = .scalar scalar →
    view.Fits field scalar
  members : op = .among → ∀ elements, operand = .multiset elements → ∀ element ∈ elements,
    ∃ scalar, element = .scalar scalar ∧ view.Fits field scalar

/-- A field is known, and what it is bound to passes its checks. -/
structure CheckedField (view : View) (field : String) (value : Node) : Prop where
  known : view.hasField field = true
  scalar : ∀ scalar, value = .scalar scalar → view.Fits field scalar
  operands : ∀ entries, value = .mapping entries →
    (∀ key ∈ Entries.keys entries, key.isOperator = true) →
      ∀ op operand, (.operator op, operand) ∈ entries → view.OperandFits field op operand

/-- An operator is admitted, and `foreign` names a foreign dataset. -/
structure CheckedOperator (view : View) (op : Operator) (value : Node) : Prop where
  admitted : view.hasOperator op = true
  named : op = .foreign → ∀ entries, value = .mapping entries →
    ∀ dataset, (.operator .dataset, dataset) ∈ entries →
      ∃ name, dataset = .scalar (.text name) ∧ view.hasForeign name = true

/-- Every entry of a mapping is checked, and the tree is no sequence. -/
def CheckedHere (view : View) : Node → Prop
  | .mapping entries =>
    (∀ field value, (.field field, value) ∈ entries → view.CheckedField field value) ∧
      ∀ op value, (.operator op, value) ∈ entries → view.CheckedOperator op value
  | .sequence _ => False
  | _ => True

/-- At every depth, every entry of a mapping is checked and there is no sequence. -/
def Checked (view : View) (node : Node) : Prop := node.Everywhere view.CheckedHere

@[simp]
theorem checked_multiset {elements : Elements} :
    view.Checked (.multiset elements) ↔ ∀ element ∈ elements, view.Checked element := by
  simp [Checked, CheckedHere]

end Parts

section Soundness

theorem foreignProblems_eq_nil {value : Node} :
    view.foreignProblems value = [] ↔
      ∃ name, value = .scalar (.text name) ∧ view.hasForeign name = true := by
  cases value with
  | scalar scalar => cases scalar <;> simp [foreignProblems, Node.scalar?, Scalar.text?]
  | _ => simp [foreignProblems, Node.scalar?]

theorem hasOperator_of_operatorProblems {op : Operator}
    (clean : view.operatorProblems context op = []) : view.hasOperator op = true := by
  by_contra refused
  simp [operatorProblems, refused] at clean

theorem operandFits_of_findings {field : String} (known : view.hasField field = true)
    {op : Operator} {operand : Node} (clean : view.findings ⟨some op, some field⟩ operand = []) :
    view.OperandFits field op operand := by
  constructor
  · rintro takes scalar rfl
    simp only [findings, operandProblems, takes, if_true, List.map_eq_nil_iff] at clean
    exact (valueProblems_eq_nil known).mp clean
  · rintro rfl elements rfl element present
    have members : view.membershipFindings .among (some field) 0 elements = [] := clean
    have member := membershipFindings_eq_nil.mp members element present
    cases element with
    | scalar scalar => exact ⟨scalar, rfl, (valueProblems_eq_nil known).mp member⟩
    | _ => simp [memberProblems] at member

theorem checkedField_of_findingsAt {enclosing : Option Operator} {field : String} {value : Node}
    (clean : view.findingsAt enclosing context (.field field, value) = []) :
    view.CheckedField field value := by
  rcases findingsAt_field_eq_nil.mp clean with ⟨known, cleanScalar, cleanInside⟩
  constructor
  · exact known
  · intro scalar isScalar
    exact (valueProblems_eq_nil known).mp (cleanScalar scalar isScalar)
  · rintro entries rfl operators op operand present
    have inside : view.entryFindings context.operator ⟨context.operator, some field⟩ entries = [] :=
      cleanInside rfl
    have cleanEntry := (entryFindings_eq_nil (.inl operators)).mp inside _ present
    rw [findingsAt_operator, List.append_eq_nil_iff] at cleanEntry
    exact operandFits_of_findings known cleanEntry.2

theorem checkedOperator_of_findingsAt {enclosing : Option Operator} {op : Operator} {value : Node}
    (clean : view.findingsAt enclosing context (.operator op, value) = []) :
    view.CheckedOperator op value := by
  rw [findingsAt_operator, List.append_eq_nil_iff, List.map_eq_nil_iff, keyProblems,
    List.append_eq_nil_iff] at clean
  rcases clean with ⟨⟨cleanKey, _⟩, cleanValue⟩
  constructor
  · exact hasOperator_of_operatorProblems cleanKey
  · rintro rfl entries rfl dataset present
    have inside : view.entryFindings (some .foreign) ⟨some .foreign, context.field⟩ entries = [] :=
      cleanValue
    rcases findingsAt_eq_nil inside _ present with ⟨before, cleanEntry⟩
    rw [findingsAt_operator, List.append_eq_nil_iff, List.map_eq_nil_iff, keyProblems,
      List.append_eq_nil_iff] at cleanEntry
    exact foreignProblems_eq_nil.mp cleanEntry.1.2

/-- Where nothing is found, everything is checked. -/
theorem checked_of_findings_eq_nil {node : Node} (clean : view.findings context node = []) :
    view.Checked node := by
  intro inner inside
  rcases clean_inside clean inside with ⟨scalar, rfl⟩ | ⟨context, cleanInside⟩
  · trivial
  · cases inner with
    | scalar scalar => trivial
    | mapping entries =>
        simp only [findings] at cleanInside
        have cleanAt := findingsAt_eq_nil cleanInside
        refine ⟨?_, ?_⟩
        · intro field value present
          rcases cleanAt _ present with ⟨before, cleanEntry⟩
          exact checkedField_of_findingsAt cleanEntry
        · intro op value present
          rcases cleanAt _ present with ⟨before, cleanEntry⟩
          exact checkedOperator_of_findingsAt cleanEntry
    | multiset elements => trivial
    | sequence items => simp [findings] at cleanInside

theorem filterFindings_eq_nil {node : Node} :
    view.filterFindings node = [] ↔ node.isMapping = true ∧ view.findings .root node = [] := by
  simp [filterFindings]

theorem isValid_validate {node : Node} :
    (view.validate node).isValid = true ↔ view.filterFindings node = [] := by
  simp [validate_eq, Report.isValid]

/-- A valid filter is a mapping and checked all over: it holds no sequence, every field is known and
every operator admitted, values and operands pass the checks of their field, and `foreign` names a
foreign dataset. -/
theorem checked_of_isValid (view : View) (node : Node)
    (valid : (view.validate node).isValid = true) : node.isMapping = true ∧ view.Checked node := by
  rw [isValid_validate, filterFindings_eq_nil] at valid
  exact ⟨valid.1, checked_of_findings_eq_nil valid.2⟩

/-- A dataset of cars that refers to dealers. -/
def carView : View where
  root := .declare "car" [("make", ⟨.text, none, .none⟩), ("year", ⟨.int, none, .none⟩)] none
    ["dealer"]
  foreigns := [.declare "dealer" [("city", ⟨.text, none, .none⟩)] none []]

/-- Cars of certain years whose dealer is in a city. -/
def dealerCars : Node :=
  .mapping [
    (.field "year", .mapping [(.operator .gte, .scalar (.int 1990)),
      (.operator .among, .multiset [.scalar (.int 2001), .scalar (.int 2005)])]),
    (.operator .foreign, .mapping [(.operator .dataset, .scalar (.text "dealer")),
      (.operator .filter, .entry (.field "city") (.scalar (.text "Bern")))])]

theorem checked_of_isValid_dealerCars :
    (carView.validate dealerCars).isValid = true ∧ dealerCars.isMapping = true ∧
      carView.Checked dealerCars := by
  have valid : (carView.validate dealerCars).isValid = true := rfl
  exact ⟨valid, checked_of_isValid carView dealerCars valid⟩

end Soundness

end View

end FilterLang
