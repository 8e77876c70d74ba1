import FilterLang.Proofs.Normal.Form
import FilterLang.Proofs.Validation.Clauses

/-!
# A filter and its normal form have one verdict

In a raw filter the field and the operator of one entry reach the entries beside it, and a range is
checked through its bounds; in the normal form every clause stands by itself, and a range is two
comparisons. For well-formed clauses and permissive views this makes no difference: having no
findings goes through combinations of clauses and structural mappings, and each pass keeps what is
asked of an operator body and of a field.
-/

namespace FilterLang

namespace View

open Node

variable {view : View}

/-- Two trees, both mappings or both not, in which nothing is found under the same operators. -/
structure SameValidity (view : View) (node result : Node) : Prop where
  mapping : result.isMapping = node.isMapping
  findings : ∀ enclosing, view.findings ⟨enclosing, none⟩ result = [] ↔
    view.findings ⟨enclosing, none⟩ node = []

theorem SameValidity.trans {first second third : Node} (left : view.SameValidity first second)
    (right : view.SameValidity second third) : view.SameValidity first third where
  mapping := right.mapping.trans left.mapping
  findings := fun enclosing => (right.findings enclosing).trans (left.findings enclosing)

/-- Two entries in which nothing is found under the same operators. -/
def SameEntry (view : View) (entry result : Key × Node) : Prop :=
  ∀ enclosing, view.findingsAt enclosing ⟨enclosing, none⟩ result = [] ↔
    view.findingsAt enclosing ⟨enclosing, none⟩ entry = []

section Congruence

theorem sameValidity_mapping {entries results : Entries} (uniform : Entries.Uniform entries)
    (sameKeys : Entries.keys results = Entries.keys entries)
    (related : List.Forall₂ view.SameEntry entries results) :
    view.SameValidity (.mapping entries) (.mapping results) where
  mapping := rfl
  findings := by
    intro enclosing
    have resultsUniform : Entries.Uniform results := by
      rwa [Entries.Uniform, sameKeys]
    rw [findings_mapping_eq_nil uniform, findings_mapping_eq_nil resultsUniform]
    apply Iff.symm
    apply forall_congr_of_forall₂ related
    intro entry _ result same
    exact (same enclosing).symm

theorem sameEntry_operator {op : Operator} {value result : Node}
    (sameScalar : result.scalar? = value.scalar?)
    (same : view.findings ⟨some op, none⟩ result = [] ↔ view.findings ⟨some op, none⟩ value = []) :
    view.SameEntry (.operator op, value) (.operator op, result) := by
  intro enclosing
  have sameProblems : view.keyProblems enclosing ⟨enclosing, none⟩ (.operator op) result = [] ↔
      view.keyProblems enclosing ⟨enclosing, none⟩ (.operator op) value = [] :=
    ⟨eq_nil_of_kinds (kinds_keyProblems sameScalar.symm),
      eq_nil_of_kinds (kinds_keyProblems sameScalar)⟩
  rw [findingsAt_operator, findingsAt_operator, List.append_eq_nil_iff, List.append_eq_nil_iff,
    List.map_eq_nil_iff, List.map_eq_nil_iff, sameProblems, same]

variable {Target : Node → Prop} (bodies : ∀ node, Target node → node.Uniform)

include bodies

/-- Nothing is found in the members of a combination, or in the members that they are related to. -/
theorem findings_members {op : Operator} (logical : op.isLogical = true) {node result : Node}
    (related : RelatedMembers Target view.SameValidity node result) :
    view.findings ⟨some op, none⟩ result = [] ↔ view.findings ⟨some op, none⟩ node = [] := by
  rcases related with @⟨elements, values, proper, each⟩
  have clause : ∀ value ∈ values, Clause Target value := by
    intro value present
    rcases exists_source each present with ⟨_, _, isClause, _⟩
    exact isClause
  have uniform : ∀ value ∈ values, value.Uniform := by
    intro value present
    exact (clause value present).uniform bodies
  have kept : (∀ value ∈ Elements.ofList values, view.findings ⟨some op, none⟩ value = []) ↔
      ∀ value ∈ values, view.findings ⟨some op, none⟩ value = [] :=
    findings_ofList_eq_nil proper uniform
  rw [findings_logical logical, findings_logical logical, clauseFindings_eq_nil,
    clauseFindings_eq_nil]
  constructor
  · intro clean element present
    rcases exists_result each present with ⟨value, among, _, same⟩
    have cleanValue := kept.mp (fun value kept => (clean value kept).2) value among
    have isMapping := same.mapping.symm.trans (clause value among).isMapping
    exact ⟨isMapping, (same.findings _).mp cleanValue⟩
  · intro clean value present
    have among := Elements.mem_of_mem_ofList present
    rcases exists_source each among with ⟨element, elementPresent, _, same⟩
    have cleanElement := (clean element elementPresent).2
    exact ⟨(clause value among).isMapping, (same.findings _).mpr cleanElement⟩

theorem congruent_sameValidity : Congruent Target view.SameValidity where
  logical := by
    intro entries results logical related
    have operators : ∀ key ∈ Entries.keys entries, key.isOperator = true := fun key present =>
      Key.isOperator_of_category? (logical key present)
    apply sameValidity_mapping (.inl operators) (Entries.keys_eq_of_forall₂ related)
    apply forall₂_imp_of_mem related
    rintro ⟨key, value⟩ present ⟨resultKey, result⟩ ⟨sameKey, members⟩
    rcases Key.category?_eq_some.mp (logical key (List.mem_map_of_mem present)) with
      ⟨op, isOperator, category⟩
    simp only at sameKey
    subst isOperator sameKey
    apply sameEntry_operator
    · cases members
      rfl
    · exact findings_members bodies (Operator.isLogical_of_category category) members
  structural := by
    intro entries results _ structural related
    have operators : ∀ key ∈ Entries.keys entries, key.isOperator = true := fun key present =>
      Key.isOperator_of_category? (structural key present)
    apply sameValidity_mapping (.inl operators) (Entries.keys_eq_of_forall₂ related)
    apply forall₂_imp_of_mem related
    rintro ⟨key, value⟩ present ⟨resultKey, result⟩ ⟨sameKey, parts⟩
    rcases Key.category?_eq_some.mp (structural key (List.mem_map_of_mem present)) with
      ⟨op, isOperator, _⟩
    simp only at sameKey parts
    subst isOperator sameKey
    cases parts with
    | scalar value => exact fun _ => Iff.rfl
    | clause same => exact sameEntry_operator rfl (same.findings (some op))

end Congruence

section Ranges

variable {name : String}

theorem sameEntry_field {entries results : Entries}
    (same : view.hasField name = true → ∀ enclosing,
      (view.findings ⟨enclosing, some name⟩ (.mapping results) = [] ↔
        view.findings ⟨enclosing, some name⟩ (.mapping entries) = [])) :
    view.SameEntry (.field name, .mapping entries) (.field name, .mapping results) := by
  intro enclosing
  rw [findingsAt_field_eq_nil, findingsAt_field_eq_nil]
  apply and_congr_right
  intro known
  simpa [isComposite] using same known enclosing

/-- Under `between`, two bounds are checked like the bounds of the body itself. -/
theorem Permissive.findings_between_eq_nil (permissive : view.Permissive)
    (known : view.hasField name = true) (enclosing : Option Operator) (start stop : Scalar) :
    view.findings ⟨enclosing, some name⟩ (entry (.operator .between)
        (.mapping [(.operator .start, .scalar start), (.operator .stop, .scalar stop)])) = [] ↔
      view.Fits name start ∧ view.Fits name stop := by
  have startTakes : Operator.start.takesFieldOperand = true := rfl
  have stopTakes : Operator.stop.takesFieldOperand = true := rfl
  rw [findings_entry_eq_nil, permissive.findingsAt_operator_eq_nil (by simp)]
  apply permissive.findings_bounds_eq_nil known (comparisons_pair rfl rfl start stop) startTakes
    stopTakes
  all_goals simp

theorem Permissive.sameEntry_rangeForm (permissive : view.Permissive) {node result : Node}
    (form : RangeForm node result) : view.SameEntry (.field name, node) (.field name, result) := by
  cases form with
  | plain => exact fun _ => Iff.rfl
  | @bounds entries start stop comparisons distinct bounded alone =>
      apply sameEntry_field
      intro known enclosing
      rcases Entries.bounds?_eq_some.mp bounded with ⟨foundStart, foundStop⟩
      have raw : view.findings ⟨enclosing, some name⟩ (.mapping entries) = [] ↔
          view.Fits name start ∧ view.Fits name stop := by
        apply permissive.findings_bounds_eq_nil known comparisons rfl rfl
          (Entries.mem_of_get? foundStart) (Entries.mem_of_get? foundStop)
        intro entry present
        exact Entries.eq_bound_of_alone distinct bounded alone present
      exact (permissive.findings_between_eq_nil known enclosing start stop).trans raw.symm

theorem Permissive.sameEntry_comparisonForm (permissive : view.Permissive) {node result : Node}
    (form : ComparisonForm node result) :
    view.SameEntry (.field name, node) (.field name, result) := by
  cases form with
  | plain => exact fun _ => Iff.rfl
  | range start stop =>
      apply sameEntry_field
      intro known enclosing
      have compared : view.findings ⟨enclosing, some name⟩
          (.mapping [(.operator .gte, .scalar start), (.operator .lte, .scalar stop)]) = [] ↔
          view.Fits name start ∧ view.Fits name stop := by
        have lowerTakes : Operator.gte.takesFieldOperand = true := rfl
        have upperTakes : Operator.lte.takesFieldOperand = true := rfl
        apply permissive.findings_bounds_eq_nil known (comparisons_pair rfl rfl start stop)
          lowerTakes upperTakes
        all_goals simp
      exact compared.trans (permissive.findings_between_eq_nil known enclosing start stop).symm

/-- Field mappings with entries that are valid alike are valid alike. -/
theorem sameValidity_fields {Source : Node → Prop} {entries results : Entries}
    (fields : Fields Source entries)
    (related : List.Forall₂ (RelatedFields fun name node result =>
      view.SameEntry (.field name, node) (.field name, result)) entries results) :
    view.SameValidity (.mapping entries) (.mapping results) := by
  have corresponds : List.Forall₂ (fun entry result : Key × Node =>
      result.1 = entry.1 ∧ view.SameEntry entry result) entries results := by
    apply related.imp
    rintro ⟨key, node⟩ ⟨resultKey, result⟩ ⟨name, rfl, rfl, same⟩
    exact ⟨rfl, same⟩
  have sameKeys : Entries.keys entries = Entries.keys results := by
    apply map_eq_map_of_forall₂ corresponds
    intro entry _ result same
    exact same.1.symm
  apply sameValidity_mapping (.inr fields.notOperators) sameKeys.symm
  exact corresponds.imp fun entry result same => same.2

end Ranges

section Conjunctions

variable {name : String}

/-- The clause of one comparison on a field asks for the field and a fitting operand. -/
theorem Permissive.findings_clauseOn_eq_nil (permissive : view.Permissive) {op : Operator}
    (comparison : op.category = .comparison) {operand : Node} (isOperand : IsOperand op operand)
    (enclosing : Option Operator) :
    view.findings ⟨enclosing, none⟩ (entry (.field name) (entry (.operator op) operand)) = [] ↔
      view.hasField name = true ∧ view.OperandFits name op operand := by
  rw [findings_entry_eq_nil, entry,
    permissive.findingsAt_comparisons_eq_nil (comparisons_singleton comparison isOperand)]
  simp

theorem Permissive.steady_clausesOn (permissive : view.Permissive) {entries : Entries}
    (comparisons : Comparisons entries) :
    ∀ clause ∈ clausesOn name entries, view.Steady clause := by
  intro clause present first second clean
  rcases exists_of_mem_clausesOn comparisons present with
    ⟨op, operand, _, comparison, isOperand, rfl⟩
  rw [permissive.findings_clauseOn_eq_nil comparison isOperand] at clean ⊢
  exact clean

/-- The clauses of comparisons ask together for what the comparisons ask for under their field. -/
theorem Permissive.findings_clausesOn_eq_nil (permissive : view.Permissive) {entries : Entries}
    (comparisons : Comparisons entries) (enclosing : Option Operator) :
    (∀ clause ∈ clausesOn name entries, view.findings ⟨enclosing, none⟩ clause = []) ↔
      view.hasField name = true ∧
        ∀ op operand, (.operator op, operand) ∈ entries → view.OperandFits name op operand := by
  constructor
  · intro clean
    have ofEntry : ∀ op operand, (.operator op, operand) ∈ entries →
        view.hasField name = true ∧ view.OperandFits name op operand := by
      intro op operand present
      rcases comparisons.comparison _ present with ⟨_, same, comparison, isOperand⟩
      cases same
      rw [← permissive.findings_clauseOn_eq_nil comparison isOperand enclosing]
      exact clean _ (List.mem_map_of_mem present)
    rcases List.exists_mem_of_ne_nil _ comparisons.nonempty with ⟨⟨key, operand⟩, present⟩
    rcases comparisons.comparison _ present with ⟨op, same, _, _⟩
    cases same
    exact ⟨(ofEntry op operand present).1, fun op operand among => (ofEntry op operand among).2⟩
  · rintro ⟨known, fits⟩ clause present
    rcases exists_of_mem_clausesOn comparisons present with
      ⟨op, operand, among, comparison, isOperand, rfl⟩
    rw [permissive.findings_clauseOn_eq_nil comparison isOperand]
    exact ⟨known, fits op operand among⟩

/-- The clause that the third pass makes of a field is valid under any operator exactly if the field
is. -/
theorem Permissive.findings_fieldForm_eq_nil (permissive : view.Permissive) {field : Key × Node}
    {clause : Node} (form : FieldForm field clause) (proper : field.2.Proper)
    (enclosing other : Option Operator) :
    view.findings ⟨other, none⟩ clause = [] ↔
      view.findingsAt enclosing ⟨enclosing, none⟩ field = [] := by
  cases form with
  | scalar name value =>
      rw [findings_entry_eq_nil, findingsAt_field_eq_nil, findingsAt_field_eq_nil]
      simp [isComposite]
  | @body name entries comparisons unbounded =>
      have clausesProper := clausesOn_proper name (proper_mapping.mp proper).2
      rw [permissive.findings_conjunction_eq_nil (clausesOn_clause name comparisons) clausesProper
        (permissive.steady_clausesOn comparisons), permissive.findings_clausesOn_eq_nil comparisons,
        permissive.findingsAt_comparisons_eq_nil comparisons]

theorem Permissive.rewrites_conjunction (permissive : view.Permissive) {entries : Entries}
    (fields : Fields PlainBody entries) (proper : Proper (.mapping entries)) :
    Rewritten PlainBody view.SameValidity (expandConjunction none (.mapping entries))
      (.mapping entries) := by
  rw [proper_mapping] at proper
  rcases eq_or_ne entries [] with rfl | nonempty
  · exact ⟨.mapping [], rfl, .fields fields, rfl, fun _ => Iff.rfl⟩
  rcases exists_fieldForms fields nonempty proper.2 with ⟨clauses, forms, expanded⟩
  have clause : ∀ clause ∈ clauses, Clause PlainBody clause := by
    intro clause present
    rcases exists_source forms present with ⟨field, _, form⟩
    exact form.clause
  have clausesProper : ∀ clause ∈ clauses, clause.Proper := by
    intro clause present
    rcases exists_source forms present with ⟨field, among, form⟩
    exact form.proper (proper.2 field among)
  have steady : ∀ clause ∈ clauses, view.Steady clause := by
    intro clause present first second clean
    rcases exists_source forms present with ⟨field, among, form⟩
    have same := permissive.findings_fieldForm_eq_nil form (proper.2 field among) none
    exact (same second).mpr ((same first).mp clean)
  refine ⟨conjunction clauses, expanded, conjunction_clause clause, ?_, ?_⟩
  · exact (conjunction_clause clause).isMapping
  · intro enclosing
    rw [permissive.findings_conjunction_eq_nil clause clausesProper steady,
      findings_mapping_eq_nil (.inr fields.notOperators)]
    apply Iff.symm
    apply forall_congr_of_forall₂ forms
    intro field among clause form
    exact (permissive.findings_fieldForm_eq_nil form (proper.2 field among) _ _).symm

end Conjunctions

/-- A well-formed clause has a normal form, and the two have the same validity. -/
theorem Permissive.normalize_sameValidity (permissive : view.Permissive) {node : Node}
    (proper : node.Proper) (clause : Clause Body node) :
    ∃ form, normalize node = .ok form ∧ view.SameValidity node form := by
  have first : Rewritten RangedBody view.SameValidity (expandRange node) node := by
    apply walks_expandRange.rewrites (congruent_sameValidity fun _ => RangedBody.uniform) _ clause
      proper
    intro entries fields entriesProper
    apply rewrites_fields
      (fun name node result => view.SameEntry (.field name, node) (.field name, result))
      walks_expandRange.scalar (fun _ _ _ => Iff.rfl) _ fields entriesProper
    · apply expandRange_of_unbounded
      apply bounds?_eq_none_of_noComparison
      intro key present
      simp [fields.category?_eq_none key present]
    · intro results _ related
      exact sameValidity_fields fields related
    · intro body isBody bodyProper
      rcases exists_rangeForm isBody bodyProper with ⟨result, expanded, form⟩
      exact ⟨result, expanded, form.rangedBody, fun _ => permissive.sameEntry_rangeForm form⟩
  rcases first with ⟨ranged, expanded, rangedClause, sameRanged⟩
  have rangedProper := expandRange_proper proper expanded
  have second : Rewritten PlainBody view.SameValidity (compareRange ranged) ranged := by
    apply walks_compareRange.rewrites (congruent_sameValidity fun _ => PlainBody.uniform) _
      rangedClause rangedProper
    intro entries fields entriesProper
    apply rewrites_fields
      (fun name node result => view.SameEntry (.field name, node) (.field name, result))
      walks_compareRange.scalar (fun _ _ _ => Iff.rfl) _ fields entriesProper
    · exact compareRange_mapping entries
    · intro results _ related
      exact sameValidity_fields fields related
    · intro body isBody bodyProper
      rcases exists_comparisonForm isBody bodyProper with ⟨result, compared, form⟩
      exact ⟨result, compared, form.plainBody, fun _ => permissive.sameEntry_comparisonForm form⟩
  rcases second with ⟨compared, comparedOk, comparedClause, sameCompared⟩
  have comparedProper := compareRange_proper rangedProper comparedOk
  have third : Rewritten PlainBody view.SameValidity (expandConjunction none compared)
      compared := by
    apply walks_expandConjunction.rewrites (congruent_sameValidity fun _ => PlainBody.uniform) _
      comparedClause comparedProper
    intro entries fields entriesProper
    exact permissive.rewrites_conjunction fields entriesProper
  rcases third with ⟨form, formOk, _, sameForm⟩
  exact ⟨form, normalize_eq_ok.mpr ⟨ranged, compared, expanded, comparedOk, formOk⟩,
    (sameRanged.trans sameCompared).trans sameForm⟩

/-- A well-formed clause has a normal form, and a view that restricts no operator finds the one
valid exactly if it finds the other valid. -/
theorem validate_normalize (view : View) (permissive : view.Permissive) (node : Node)
    (proper : node.Proper) (clause : Clause Body node) :
    ∃ form, normalize node = .ok form ∧
      ((view.validate node).isValid = true ↔ (view.validate form).isValid = true) := by
  rcases permissive.normalize_sameValidity proper clause with ⟨form, normalized, same⟩
  refine ⟨form, normalized, ?_⟩
  rw [isValid_validate, isValid_validate, filterFindings_eq_nil, filterFindings_eq_nil,
    same.mapping]
  apply and_congr_right
  intro _
  exact (same.findings none).symm

theorem carView_permissive : carView.Permissive := by
  constructor
  · intro op
    cases op <;> decide
  · have unrestricted : ∀ dataset ∈ carView.datasets, ∀ binding ∈ dataset.fields.entries,
        binding.2.operators = none := by
      decide
    intro dataset present field declaration declared
    rw [Dataset.field?, Table.find?, List.lookup_eq_some_iff] at declared
    rcases declared with ⟨before, after, split, _⟩
    apply unrestricted dataset present (field, declaration)
    rw [split]
    simp

/-- A make, and a range of years. -/
def makeInYears : Node :=
  .mapping [(.field "make", .scalar (.text "chevy")), (.field "year",
    .mapping [(.operator .start, .scalar (.int 2001)), (.operator .stop, .scalar (.int 2005))])]

theorem validate_normalize_makeInYears :
    carView.Permissive ∧ makeInYears.Proper ∧ Clause Body makeInYears ∧
      (carView.validate makeInYears).isValid = true ∧
      ∃ form, normalize makeInYears = .ok form ∧
        ((carView.validate makeInYears).isValid = true ↔
          (carView.validate form).isValid = true) := by
  have proper : makeInYears.Proper := by
    simp [makeInYears, Entries.keys]
  have body : Body (.mapping
      [(.operator .start, .scalar (.int 2001)), (.operator .stop, .scalar (.int 2005))]) :=
    .comparisons (comparisons_pair rfl rfl _ _) (by simp [Entries.keys])
  have clause : Clause Body makeInYears := by
    apply Clause.fields
    constructor
    · intro entry present
      rcases List.mem_pair.mp present with rfl | rfl
      · exact ⟨"make", rfl⟩
      · exact ⟨"year", rfl⟩
    · intro entry present
      rcases List.mem_pair.mp present with rfl | rfl
      · exact .inl ⟨_, rfl⟩
      · exact .inr body
  exact ⟨carView_permissive, proper, clause, rfl,
    validate_normalize carView carView_permissive makeInYears proper clause⟩

end View

end FilterLang
