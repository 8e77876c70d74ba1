import FilterLang.Proofs.Normal.Canonical
import FilterLang.Proofs.Normal.WellFormed

/-!
# What the passes make of operator bodies

Each pass has its own form of an operator body. The first one puts two bounds under `between`
(`Node.RangeForm`), the second one puts two comparisons in the place of a range
(`Node.ComparisonForm`), and the third one makes a conjunction of clauses of the comparisons on a
field (`Node.FieldForm`). What does not change under these forms does not change under the passes,
since all of them walk through the rest of a clause alike.
-/

namespace FilterLang

namespace Node

section Operands

theorem IsOperand.canonical {op : Operator} {node : Node} (operand : IsOperand op node) :
    node.Canonical := by
  cases operand with
  | scalar value => exact canonical_scalar
  | set _ scalars =>
      rw [canonical_multiset]
      intro element present
      rcases scalars element present with ⟨value, rfl⟩
      exact canonical_scalar

/-- What leaves canonical trees as they are leaves the operands of comparisons as they are. -/
theorem Comparisons.traverse_eq_self {f : Node → Except Fault Node}
    (fixes : ∀ node : Node, node.Proper → node.Canonical → f node = .ok node)
    {entries : Entries} (comparisons : Comparisons entries)
    (proper : ∀ entry ∈ entries, entry.2.Proper) :
    (Entries.traverse f entries).map Node.mapping = .ok (.mapping entries) := by
  rw [Entries.map_traverse_eq_ok]
  refine ⟨entries, ?_, rfl⟩
  rw [List.forall₂_same]
  intro entry present
  rcases comparisons.comparison entry present with ⟨op, _, _, operand⟩
  exact ⟨rfl, fixes entry.2 (proper entry present) operand.canonical⟩

theorem Comparisons.range?_eq_none {entries : Entries} (comparisons : Comparisons entries) :
    range? (.mapping entries) = none := by
  cases range : range? (.mapping entries) with
  | none => rfl
  | some bounds =>
      rcases range?_eq_some.mp range with ⟨_, inner, same, between, _⟩
      cases same
      rcases comparisons.comparison _ (Entries.mem_of_get? between) with ⟨op, _, _, operand⟩
      cases operand

theorem Comparisons.scalar_of_get? {entries : Entries} (comparisons : Comparisons entries)
    {op : Operator} (other : op ≠ .among) {operand : Node}
    (found : Entries.get? (.operator op) entries = some operand) :
    ∃ value, operand = .scalar value := by
  rcases comparisons.comparison _ (Entries.mem_of_get? found) with ⟨_, same, _, isOperand⟩
  simp only [Key.operator.injEq] at same
  subst same
  cases isOperand with
  | scalar value => exact ⟨value, rfl⟩
  | set membership _ => exact absurd membership other

end Operands

section Ranges

/-- The first pass on an operator body: two bounds come to stand under `between`. -/
inductive RangeForm : Node → Node → Prop
  | bounds {entries : Entries} {start stop : Scalar} (comparisons : Comparisons entries)
      (distinct : (Entries.keys entries).Nodup)
      (bounded : Entries.bounds? entries = some (.scalar start, .scalar stop))
      (alone : ∀ key ∈ Entries.keys entries, key = .operator .start ∨ key = .operator .stop) :
      RangeForm (.mapping entries) (entry (.operator .between)
        (.mapping [(.operator .start, .scalar start), (.operator .stop, .scalar stop)]))
  | plain {entries : Entries} (comparisons : Comparisons entries)
      (unbounded : Entries.bounds? entries = none) : RangeForm (.mapping entries) (.mapping entries)

theorem RangeForm.rangedBody {node result : Node} (form : RangeForm node result) :
    RangedBody result := by
  cases form with
  | bounds => exact .range _ _
  | plain comparisons unbounded => exact .comparisons comparisons unbounded

theorem exists_rangeForm {node : Node} (body : Body node) (proper : node.Proper) :
    ∃ result, expandRange node = .ok result ∧ RangeForm node result := by
  rcases body with @⟨entries, comparisons, alone⟩
  rw [proper_mapping] at proper
  cases bounded : Entries.bounds? entries with
  | none =>
      refine ⟨.mapping entries, ?_, .plain comparisons bounded⟩
      rw [expandRange_of_unbounded bounded]
      exact comparisons.traverse_eq_self (fun _ => expandRange_of_canonical) proper.2
  | some bounds =>
      rcases bounds with ⟨start, stop⟩
      rcases Entries.bounds?_eq_some.mp bounded with ⟨foundStart, foundStop⟩
      rcases comparisons.scalar_of_get? (by decide) foundStart with ⟨lower, rfl⟩
      rcases comparisons.scalar_of_get? (by decide) foundStop with ⟨upper, rfl⟩
      refine ⟨_, ?_, .bounds comparisons proper.1 bounded (alone (by rw [bounded]; rfl))⟩
      rw [expandRange_of_bounds bounded]
      rfl

/-- The second pass on an operator body: two comparisons take the place of a range. -/
inductive ComparisonForm : Node → Node → Prop
  | range (start stop : Scalar) :
      ComparisonForm (entry (.operator .between)
          (.mapping [(.operator .start, .scalar start), (.operator .stop, .scalar stop)]))
        (.mapping [(.operator .gte, .scalar start), (.operator .lte, .scalar stop)])
  | plain {entries : Entries} (comparisons : Comparisons entries)
      (unbounded : Entries.bounds? entries = none) :
      ComparisonForm (.mapping entries) (.mapping entries)

/-- Two comparisons with scalars make an operator body. -/
theorem comparisons_pair {lower upper : Operator} (lowerComparison : lower.category = .comparison)
    (upperComparison : upper.category = .comparison) (start stop : Scalar) :
    Comparisons [(.operator lower, .scalar start), (.operator upper, .scalar stop)] := by
  constructor
  · simp
  · intro entry present
    rcases List.mem_pair.mp present with rfl | rfl
    · exact ⟨lower, rfl, lowerComparison, .scalar start⟩
    · exact ⟨upper, rfl, upperComparison, .scalar stop⟩

theorem ComparisonForm.plainBody {node result : Node} (form : ComparisonForm node result) :
    PlainBody result := by
  cases form with
  | range start stop => exact .comparisons (comparisons_pair rfl rfl start stop) rfl
  | plain comparisons unbounded => exact .comparisons comparisons unbounded

theorem exists_comparisonForm {node : Node} (body : RangedBody node) (proper : node.Proper) :
    ∃ result, compareValue node = .ok result ∧ ComparisonForm node result := by
  cases body with
  | range start stop => exact ⟨_, rfl, .range start stop⟩
  | @comparisons entries comparisons unbounded =>
      rw [proper_mapping] at proper
      refine ⟨.mapping entries, ?_, .plain comparisons unbounded⟩
      rw [compareValue_of_none comparisons.range?_eq_none, compareRange_mapping]
      apply comparisons.traverse_eq_self _ proper.2
      intro operand operandProper canonical
      rw [compareValue_of_none canonical.range?_eq_none]
      exact compareRange_of_canonical operandProper canonical

end Ranges

section Conjunctions

theorem comparisons_singleton {op : Operator} (comparison : op.category = .comparison)
    {operand : Node} (isOperand : IsOperand op operand) :
    Comparisons [(.operator op, operand)] := by
  constructor
  · simp
  · intro entry present
    rw [List.mem_singleton] at present
    subst present
    exact ⟨op, rfl, comparison, isOperand⟩

theorem plainBody_entry {op : Operator} (comparison : op.category = .comparison) {operand : Node}
    (isOperand : IsOperand op operand) : PlainBody (entry (.operator op) operand) :=
  .comparisons (comparisons_singleton comparison isOperand) (Entries.bounds?_singleton _ operand)

theorem clause_field {Body : Node → Prop} (name : String) {node : Node}
    (value : (∃ scalar, node = .scalar scalar) ∨ Body node) :
    Clause Body (entry (.field name) node) := by
  apply Clause.fields
  constructor
  · intro entry present
    rw [List.mem_singleton] at present
    subst present
    exact ⟨name, rfl⟩
  · intro entry present
    rw [List.mem_singleton] at present
    subst present
    exact value

theorem conjunction_clause {Body : Node → Prop} {clauses : List Node}
    (each : ∀ clause ∈ clauses, Clause Body clause) : Clause Body (conjunction clauses) := by
  apply conjunction_of each
  apply Clause.logical
  · simp
  · simp [Entries.keys]
    rfl
  · simp
  · intro entry present elements isMultiset element among
    rw [List.mem_singleton] at present
    subst present
    cases isMultiset
    exact each element (Elements.mem_of_mem_ofList among)

/-- The clauses that comparisons on a field stand for. -/
def clausesOn (name : String) (entries : Entries) : List Node :=
  entries.map fun comparison => entry (.field name) (entry comparison.1 comparison.2)

theorem clausesOn_proper (name : String) {entries : Entries}
    (proper : ∀ entry ∈ entries, entry.2.Proper) :
    ∀ clause ∈ clausesOn name entries, clause.Proper := by
  intro clause present
  rcases List.mem_map.mp present with ⟨comparison, among, rfl⟩
  simpa using proper comparison among

theorem exists_of_mem_clausesOn {name : String} {entries : Entries}
    (comparisons : Comparisons entries) {clause : Node}
    (present : clause ∈ clausesOn name entries) :
    ∃ op operand, (.operator op, operand) ∈ entries ∧ op.category = .comparison ∧
      IsOperand op operand ∧ clause = entry (.field name) (entry (.operator op) operand) := by
  rcases List.mem_map.mp present with ⟨⟨key, operand⟩, among, rfl⟩
  rcases comparisons.comparison _ among with ⟨op, same, comparison, isOperand⟩
  simp only at same
  subst same
  exact ⟨op, operand, among, comparison, isOperand, rfl⟩

theorem clausesOn_clause (name : String) {entries : Entries} (comparisons : Comparisons entries) :
    ∀ clause ∈ clausesOn name entries, Clause PlainBody clause := by
  intro clause present
  rcases exists_of_mem_clausesOn comparisons present with
    ⟨op, operand, _, comparison, isOperand, rfl⟩
  exact clause_field name (.inr (plainBody_entry comparison isOperand))

/-- The third pass makes clauses on the field of the comparisons in its body. -/
theorem expandConjunction_body (name : String) {entries : Entries}
    (comparisons : Comparisons entries) (proper : ∀ entry ∈ entries, entry.2.Proper) :
    expandConjunction (some (.field name)) (.mapping entries) =
      .ok (conjunction (clausesOn name entries)) := by
  have reads : Reading.Reads (some (.field name)) (Entries.keys entries)
      (.comparisons (.field name)) := by
    apply Reading.Reads.underField rfl
    · exact Entries.keys_ne_nil.mpr comparisons.nonempty
    · intro key present
      rcases List.mem_map.mp present with ⟨entry, among, rfl⟩
      rcases comparisons.comparison entry among with ⟨op, same, comparison, _⟩
      rw [same, Key.category?_operator, comparison]
  have clauses : List.Forall₂ (IsComparisonClause (.field name)) entries
      (clausesOn name entries) := by
    rw [clausesOn, List.forall₂_map_right_iff, List.forall₂_same]
    intro comparison present
    rcases comparisons.comparison comparison present with ⟨op, same, _, operand⟩
    refine ⟨comparison.2, ?_, rfl⟩
    rw [same]
    exact expandConjunction_of_canonical (proper comparison present) operand.canonical (by simp)
  exact expandConjunction_mapping_eq_ok.mpr (.comparisons reads clauses)

/-- The third pass on a field: the field with a scalar is a clause, and the comparisons in a body
make a conjunction of clauses. -/
inductive FieldForm : Key × Node → Node → Prop
  | scalar (name : String) (value : Scalar) :
      FieldForm (.field name, .scalar value) (entry (.field name) (.scalar value))
  | body (name : String) {entries : Entries} (comparisons : Comparisons entries)
      (unbounded : Entries.bounds? entries = none) :
      FieldForm (.field name, .mapping entries) (conjunction (clausesOn name entries))

theorem FieldForm.clause {field : Key × Node} {clause : Node} (form : FieldForm field clause) :
    Clause PlainBody clause := by
  cases form with
  | scalar name value => exact clause_field name (.inl ⟨value, rfl⟩)
  | body name comparisons _ => exact conjunction_clause (clausesOn_clause name comparisons)

theorem FieldForm.proper {field : Key × Node} {clause : Node} (form : FieldForm field clause)
    (proper : field.2.Proper) : clause.Proper := by
  cases form with
  | scalar name value => simp
  | body name comparisons _ =>
      have clausesProper := clausesOn_proper name (proper_mapping.mp proper).2
      exact conjunction_of clausesProper (proper_and clausesProper)

theorem FieldForm.isFieldClause {field : Key × Node} {clause : Node}
    (form : FieldForm field clause) (proper : field.2.Proper) : IsFieldClause field clause := by
  cases form with
  | scalar name value => exact .other rfl rfl
  | body name comparisons _ =>
      exact .mapping rfl (expandConjunction_body name comparisons (proper_mapping.mp proper).2)

/-- The third pass makes a conjunction of the clauses of the fields. -/
theorem exists_fieldForms {entries : Entries} (fields : Fields PlainBody entries)
    (nonempty : entries ≠ []) (proper : ∀ entry ∈ entries, entry.2.Proper) :
    ∃ clauses, List.Forall₂ FieldForm entries clauses ∧
      expandConjunction none (.mapping entries) = .ok (conjunction clauses) := by
  have reads : Reading.Reads none (Entries.keys entries) .fields :=
    .fields (Entries.keys_ne_nil.mpr nonempty) fields.notOperators
  have partner : ∀ entry ∈ entries, ∃ clause, FieldForm entry clause := by
    rintro ⟨key, node⟩ present
    rcases fields.field _ present with ⟨name, sameKey⟩
    simp only at sameKey
    subst sameKey
    rcases fields.value _ present with ⟨leaf, isScalar⟩ | isBody
    · simp only at isScalar
      subst isScalar
      exact ⟨_, .scalar name leaf⟩
    · rcases isBody with ⟨comparisons, unbounded⟩
      exact ⟨_, .body name comparisons unbounded⟩
  rcases exists_forall₂ partner with ⟨clauses, forms⟩
  refine ⟨clauses, forms, ?_⟩
  apply expandConjunction_mapping_eq_ok.mpr
  apply ExpandsConjunction.fields reads
  apply forall₂_imp_of_mem forms
  intro entry present clause form
  exact form.isFieldClause (proper entry present)

end Conjunctions

section Passes

/-- Where no comparison stands, there are no bounds. -/
theorem bounds?_eq_none_of_noComparison {entries : Entries}
    (noComparison : ∀ key ∈ Entries.keys entries, key.category? ≠ some .comparison) :
    Entries.bounds? entries = none := by
  apply Entries.bounds?_eq_none_of_absent
  intro start
  exact absurd rfl (noComparison _ start)

theorem range?_eq_none_of_noComparison {entries : Entries}
    (noComparison : ∀ key ∈ Entries.keys entries, key.category? ≠ some .comparison) :
    range? (.mapping entries) = none := by
  apply range?_eq_none_of_absent
  intro between
  exact absurd rfl (noComparison _ between)

theorem noComparison_of_category {category : Operator.Category} (other : category ≠ .comparison)
    {keys : List Key} (uniform : ∀ key ∈ keys, key.category? = some category) :
    ∀ key ∈ keys, key.category? ≠ some .comparison := by
  intro key present comparison
  rw [uniform key present, Option.some.injEq] at comparison
  exact other comparison

theorem walks_expandRange : Walks expandRange expandRange where
  scalar := fun _ => rfl
  multiset := expandRange_multiset
  clause := fun _ _ => rfl
  whole := by
    intro category entries other _ uniform
    exact expandRange_of_unbounded
      (bounds?_eq_none_of_noComparison (noComparison_of_category other uniform))
  proper := expandRange_proper

theorem walks_compareRange : Walks compareRange compareValue where
  scalar := fun _ => rfl
  multiset := by
    intro elements
    rw [compareValue_of_none rfl, compareRange_multiset]
  clause := by
    intro entries noComparison
    exact compareValue_of_none (range?_eq_none_of_noComparison noComparison)
  whole := fun _ entries _ _ _ => compareRange_mapping entries
  proper := compareRange_proper

theorem walks_expandConjunction : Walks (expandConjunction none) (expandConjunction none) where
  scalar := fun _ => rfl
  multiset := expandConjunction_multiset none
  clause := fun _ _ => rfl
  whole := by
    intro category entries other nonempty uniform
    apply expandConjunction_whole
    apply Reading.ofKeys_eq_ok.mpr
    exact .uniform other (Entries.keys_ne_nil.mpr nonempty) uniform
  proper := expandConjunction_proper

end Passes

end Node

end FilterLang
