import FilterLang.Proofs.Validation.Clauses

/-!
# The verdict on well-formed clauses

`View.Conforms` says what a dataset asks of a filter, without reference to the walk of validation:
known fields, admitted operators and comparisons, fitting values and operands, and names of foreign
datasets. On well-formed clauses validation is exact: it finds a problem if and only if the clause
does not conform. In such a clause no field stands above another clause, so that each clause is
walked over without a field, whatever comes before it; and what an operator hands down matters only
for `dataset` directly under `foreign`.
-/

namespace FilterLang

namespace Node

/-- An operator body: a mapping of comparisons with their operands. -/
inductive OperatorBody : Node → Prop
  | comparisons {entries : Entries} (comparisons : Comparisons entries) :
      OperatorBody (.mapping entries)

end Node

namespace View

open Node

variable {view : View} {enclosing : Option Operator}

section Parts

/-- A field is checked, and it admits the comparisons directly under it. -/
structure ConformingField (view : View) (field : String) (value : Node) : Prop
    extends view.CheckedField field value where
  comparison : ∀ entries, value = .mapping entries → ∀ op operand,
    (.operator op, operand) ∈ entries → op.isComparison = true → view.AdmitsOn field op

/-- Every field of a mapping conforms, and every operator is checked. -/
def ConformsHere (view : View) : Node → Prop
  | .mapping entries =>
    (∀ field value, (.field field, value) ∈ entries → view.ConformingField field value) ∧
      ∀ op value, (.operator op, value) ∈ entries → view.CheckedOperator op value
  | _ => True

/-- At every depth, every field of a mapping conforms and every operator is checked. -/
def Conforms (view : View) (node : Node) : Prop := node.Everywhere view.ConformsHere

@[simp]
theorem conforms_scalar {scalar : Scalar} : view.Conforms (.scalar scalar) := by
  simp [Conforms, ConformsHere]

@[simp]
theorem conforms_multiset {elements : Elements} :
    view.Conforms (.multiset elements) ↔ ∀ element ∈ elements, view.Conforms element := by
  simp [Conforms, ConformsHere]

theorem conforms_fields {entries : Entries}
    (fields : ∀ key ∈ Entries.keys entries, key.isOperator = false) :
    view.Conforms (.mapping entries) ↔ ∀ field value, (.field field, value) ∈ entries →
      view.ConformingField field value ∧ view.Conforms value := by
  have noOperator : ∀ op value, (.operator op, value) ∉ entries := by
    intro op value present
    cases fields _ (List.mem_map_of_mem present)
  rw [Conforms, everywhere_mapping, ConformsHere]
  constructor
  · rintro ⟨⟨conforming, _⟩, inside⟩ field value present
    exact ⟨conforming field value present, inside _ present⟩
  · intro each
    refine ⟨⟨fun field value present => (each field value present).1, ?_⟩, ?_⟩
    · intro op value present
      exact absurd present (noOperator op value)
    · rintro ⟨key, value⟩ present
      rcases Key.isOperator_eq_false.mp (fields _ (List.mem_map_of_mem present)) with ⟨field, same⟩
      cases same
      exact (each field value present).2

theorem conforms_operators {entries : Entries}
    (operators : ∀ key ∈ Entries.keys entries, key.isOperator = true) :
    view.Conforms (.mapping entries) ↔ ∀ op value, (.operator op, value) ∈ entries →
      view.CheckedOperator op value ∧ view.Conforms value := by
  have noField : ∀ field value, (.field field, value) ∉ entries := by
    intro field value present
    cases operators _ (List.mem_map_of_mem present)
  rw [Conforms, everywhere_mapping, ConformsHere]
  constructor
  · rintro ⟨⟨_, checked⟩, inside⟩ op value present
    exact ⟨checked op value present, inside _ present⟩
  · intro each
    refine ⟨⟨?_, fun op value present => (each op value present).1⟩, ?_⟩
    · intro field value present
      exact absurd present (noField field value)
    · rintro ⟨key, value⟩ present
      cases key with
      | field field => exact absurd present (noField field value)
      | operator op => exact (each op value present).2

end Parts

section Entries

variable {field : String}

/-- An operator body conforms if its operators are admitted. -/
theorem conforms_comparisons {entries : Entries} (comparisons : Comparisons entries) :
    view.Conforms (.mapping entries) ↔
      ∀ op operand, (.operator op, operand) ∈ entries → view.hasOperator op = true := by
  rw [conforms_operators comparisons.operators]
  constructor
  · intro conforms op operand present
    exact (conforms op operand present).1.admitted
  · intro admitted op operand present
    rcases comparisons.comparison _ present with ⟨_, same, comparison, isOperand⟩
    cases same
    refine ⟨⟨admitted op operand present, ?_⟩, ?_⟩
    · rintro rfl
      cases comparison
    · cases isOperand with
      | scalar value => exact conforms_scalar
      | set _ scalars =>
          rw [conforms_multiset]
          intro element among
          rcases scalars element among with ⟨value, rfl⟩
          exact conforms_scalar

/-- A field with an operator body conforms, together with the body, if it is known and admits each
comparison, and each operand fits. -/
theorem conformingField_comparisons {entries : Entries} (comparisons : Comparisons entries) :
    view.ConformingField field (.mapping entries) ∧ view.Conforms (.mapping entries) ↔
      view.hasField field = true ∧ ∀ op operand, (.operator op, operand) ∈ entries →
        (view.hasOperator op = true ∧ view.AdmitsOn field op) ∧
          view.OperandFits field op operand := by
  rw [conforms_comparisons comparisons]
  constructor
  · rintro ⟨conforming, admitted⟩
    refine ⟨conforming.known, ?_⟩
    intro op operand present
    have fits := conforming.operands entries rfl comparisons.operators op operand present
    rcases comparisons.comparison _ present with ⟨_, same, comparison, _⟩
    cases same
    have isComparison := Operator.isComparison_of_category comparison
    have admits := conforming.comparison entries rfl op operand present isComparison
    exact ⟨⟨admitted op operand present, admits⟩, fits⟩
  · rintro ⟨known, each⟩
    refine ⟨⟨⟨known, ?_, ?_⟩, ?_⟩, fun op operand present => (each op operand present).1.1⟩
    · rintro scalar same
      cases same
    · rintro _ ⟨⟩ _ op operand present
      exact (each op operand present).2
    · rintro _ ⟨⟩ op operand present _
      exact (each op operand present).1.2

/-- Nothing is found at a field of a well-formed clause if and only if the field conforms. -/
theorem findingsAt_field_iff_conforming {value : Node}
    (admissible : (∃ scalar, value = .scalar scalar) ∨ OperatorBody value) :
    view.findingsAt enclosing ⟨enclosing, none⟩ (.field field, value) = [] ↔
      view.ConformingField field value ∧ view.Conforms value := by
  rw [findingsAt_field_eq_nil]
  rcases admissible with ⟨scalar, rfl⟩ | body
  · constructor
    · rintro ⟨known, clean, _⟩
      have fits := (valueProblems_eq_nil known).mp (clean scalar rfl)
      refine ⟨⟨⟨known, ?_, ?_⟩, ?_⟩, conforms_scalar⟩
      · rintro _ ⟨⟩
        exact fits
      · rintro entries ⟨⟩
      · rintro entries ⟨⟩
    · rintro ⟨conforming, _⟩
      refine ⟨conforming.known, ?_, by simp [isComposite]⟩
      rintro _ ⟨⟩
      exact (valueProblems_eq_nil conforming.known).mpr (conforming.scalar scalar rfl)
  · rcases body with @⟨entries, comparisons⟩
    rw [conformingField_comparisons comparisons]
    apply and_congr_right
    intro known
    rw [findings_comparisons_eq_nil known comparisons]
    simp [isComposite]

end Entries

section Clauses

/-- Under `foreign`, the entries under `dataset` name foreign datasets. -/
def NamesForeigns (view : View) (enclosing : Option Operator) (node : Node) : Prop :=
  enclosing = some .foreign → ∀ entries, node = .mapping entries →
    ∀ dataset, (.operator .dataset, dataset) ∈ entries → view.NamesForeign dataset

theorem checkedOperator_iff {op : Operator} {value : Node} :
    view.CheckedOperator op value ↔
      view.hasOperator op = true ∧ view.NamesForeigns (some op) value := by
  constructor
  · intro checked
    refine ⟨checked.admitted, ?_⟩
    rintro ⟨⟩
    exact checked.named rfl
  · rintro ⟨admitted, named⟩
    refine ⟨admitted, ?_⟩
    rintro rfl
    exact named rfl

/-- Under an operator, the walk finds nothing in a tree if and only if the tree conforms and,
directly under `foreign`, names foreign datasets. -/
structure ExactUnder (view : View) (enclosing : Option Operator) (node : Node) : Prop where
  iff : view.findings ⟨enclosing, none⟩ node = [] ↔
    view.Conforms node ∧ view.NamesForeigns enclosing node

theorem exactUnder_scalar {scalar : Scalar} : view.ExactUnder enclosing (.scalar scalar) := by
  have unread : view.operandProblems ⟨enclosing, none⟩ scalar = [] := by
    cases enclosing <;> rfl
  exact ⟨by simp [findings, unread, NamesForeigns]⟩

theorem exactUnder_members {op : Operator} (logical : op.isLogical = true) {elements : Elements}
    (exact : ∀ element ∈ elements, element.isMapping = true ∧ view.ExactUnder (some op) element) :
    view.ExactUnder (some op) (.multiset elements) := by
  have notForeign : op ≠ .foreign := by
    rintro rfl
    cases logical
  have members : ∀ element ∈ elements,
      (element.isMapping = true ∧ view.findings ⟨some op, none⟩ element = [] ↔
        view.Conforms element) := by
    intro element among
    rcases exact element among with ⟨isMapping, exactElement⟩
    rw [exactElement.iff]
    simp [isMapping, NamesForeigns, notForeign]
  constructor
  rw [findings_logical logical, clauseFindings_eq_nil, conforms_multiset,
    forall₂_congr members]
  simp [NamesForeigns]

theorem exactUnder_operators {entries : Entries}
    (operators : ∀ key ∈ Entries.keys entries, key.isOperator = true)
    (exact : ∀ op value, (.operator op, value) ∈ entries → view.ExactUnder (some op) value) :
    view.ExactUnder enclosing (.mapping entries) := by
  have perEntry : ∀ op value, (.operator op, value) ∈ entries →
      (view.findingsAt enclosing ⟨enclosing, none⟩ (.operator op, value) = [] ↔
        (view.CheckedOperator op value ∧ view.Conforms value) ∧
          (op = .dataset → enclosing = some .foreign → view.NamesForeign value)) := by
    intro op value present
    rw [findingsAt_outside_eq_nil, (exact op value present).iff, checkedOperator_iff]
    tauto
  constructor
  rw [findings_mapping_eq_nil (.inl operators), conforms_operators operators]
  constructor
  · intro clean
    constructor
    · intro op value present
      exact ((perEntry op value present).mp (clean _ present)).1
    · rintro isForeign _ ⟨⟩ dataset present
      exact ((perEntry .dataset dataset present).mp (clean _ present)).2 rfl isForeign
  · rintro ⟨conforms, named⟩ ⟨key, value⟩ present
    cases key with
    | field field => cases operators _ (List.mem_map_of_mem present)
    | operator op =>
        refine (perEntry op value present).mpr ⟨conforms op value present, ?_⟩
        rintro rfl isForeign
        exact named isForeign entries rfl value present

theorem exactUnder_fields {entries : Entries} (fields : Fields OperatorBody entries) :
    view.ExactUnder enclosing (.mapping entries) := by
  have named : view.NamesForeigns enclosing (.mapping entries) := by
    rintro _ _ ⟨⟩ dataset present
    cases fields.notOperators _ (List.mem_map_of_mem present)
  constructor
  rw [findings_mapping_eq_nil (.inr fields.notOperators),
    conforms_fields fields.notOperators]
  simp only [named, and_true]
  constructor
  · intro clean field value present
    exact (findingsAt_field_iff_conforming (fields.value _ present)).mp (clean _ present)
  · rintro conforms ⟨key, value⟩ present
    rcases fields.field _ present with ⟨field, same⟩
    cases same
    exact (findingsAt_field_iff_conforming (fields.value _ present)).mpr
      (conforms field value present)

/-- The walk is exact on a well-formed clause, whatever operator stands above it. -/
theorem exactUnder_of_clause {clause : Node} (wellFormed : Clause OperatorBody clause) :
    view.ExactUnder enclosing clause := by
  induction wellFormed generalizing enclosing with
  | fields fields => exact exactUnder_fields fields
  | logical _ logical multiset clause ih =>
      apply exactUnder_operators fun key present => Key.isOperator_of_category? (logical key present)
      intro op value present
      rcases multiset _ present with ⟨elements, isMultiset⟩
      cases isMultiset
      have isLogical : op.category = .logical := by
        simpa using logical _ (List.mem_map_of_mem present)
      apply exactUnder_members (Operator.isLogical_of_category isLogical)
      intro element among
      exact ⟨(clause _ present elements rfl element among).isMapping,
        ih _ present elements rfl element among⟩
  | structural _ structural _ ih =>
      apply exactUnder_operators fun key present =>
        Key.isOperator_of_category? (structural key present)
      intro op value present
      cases composite : value.isComposite with
      | true => exact ih _ present composite
      | false =>
          rcases exists_scalar composite with ⟨scalar, rfl⟩
          exact exactUnder_scalar

/-- A well-formed clause is valid if and only if it conforms: validation misses no violation and
gives no false alarm. -/
theorem isValid_iff_conforms (view : View) (clause : Node)
    (wellFormed : Clause OperatorBody clause) :
    (view.validate clause).isValid = true ↔ view.Conforms clause := by
  have exact : view.ExactUnder none clause := exactUnder_of_clause wellFormed
  rw [isValid_validate, filterFindings_eq_nil, Context.root, exact.iff]
  simp [wellFormed.isMapping, NamesForeigns]

/-- Cars whose dealer is in a city. -/
def dealerInBern : Node :=
  .entry (.operator .foreign) (.mapping [(.operator .dataset, .scalar (.text "dealer")),
    (.operator .filter, .entry (.field "city") (.entry (.operator .eq) (.scalar (.text "Bern"))))])

theorem isValid_iff_conforms_dealerInBern :
    Clause OperatorBody dealerInBern ∧ (carView.validate dealerInBern).isValid = true ∧
      ((carView.validate dealerInBern).isValid = true ↔ carView.Conforms dealerInBern) := by
  have inBern : Clause OperatorBody
      (.entry (.field "city") (.entry (.operator .eq) (.scalar (.text "Bern")))) :=
    clause_field "city" (.inr (.comparisons (comparisons_singleton rfl (.scalar _))))
  have dealer : Clause OperatorBody (.mapping [(.operator .dataset, .scalar (.text "dealer")),
      (.operator .filter,
        .entry (.field "city") (.entry (.operator .eq) (.scalar (.text "Bern"))))]) := by
    apply Clause.structural
    · simp
    · simp [Entries.keys]
      decide
    · intro entry present composite
      rcases List.mem_pair.mp present with rfl | rfl
      · cases composite
      · exact inBern
  have wellFormed : Clause OperatorBody dealerInBern := by
    apply Clause.structural
    · simp
    · simp [Entries.keys]
      decide
    · intro entry present _
      rw [List.mem_singleton] at present
      rw [present]
      exact dealer
  exact ⟨wellFormed, rfl, isValid_iff_conforms carView dealerInBern wellFormed⟩

end Clauses

end View

end FilterLang
