import FilterLang.Proofs.Normal.Clause
import FilterLang.Proofs.Normal.Range

/-!
# Well-formed filters

`Node.Clause` is the grammar of well-formed filters. Its parameter says what a field may be bound to
beside a scalar, which is all that the passes over ranges change: an operator body may hold two
bounds beside each other (`Node.Body`), then a range under `between` (`Node.RangedBody`), and then
comparisons only (`Node.PlainBody`).

All passes go through combinations of clauses and structural mappings in one way (`Node.Walks`). A
relation between clauses that goes through them too (`Node.Congruent`) therefore holds between a
clause and what a pass makes of it as soon as it holds so for field mappings.
-/

namespace FilterLang

namespace Node

/-- What an operator may be bound to in an operator body: a scalar, or a multiset of scalars under
`in`. -/
inductive IsOperand (op : Operator) : Node → Prop
  | scalar (value : Scalar) : IsOperand op (.scalar value)
  | set {elements : Elements} (membership : op = .among)
      (scalars : ∀ element ∈ elements, ∃ value, element = .scalar value) :
      IsOperand op (.multiset elements)

/-- A mapping of comparisons with their operands. -/
structure Comparisons (entries : Entries) : Prop where
  nonempty : entries ≠ []
  comparison : ∀ entry ∈ entries, ∃ op, entry.1 = .operator op ∧ op.category = .comparison ∧
    IsOperand op entry.2

theorem Comparisons.operators {entries : Entries} (comparisons : Comparisons entries) :
    ∀ key ∈ Entries.keys entries, key.isOperator = true := by
  intro key present
  rcases List.mem_map.mp present with ⟨entry, among, rfl⟩
  rcases comparisons.comparison entry among with ⟨op, same, _, _⟩
  rw [same]
  rfl

/-- An operator body, in which nothing stands beside two bounds. -/
inductive Body : Node → Prop
  | comparisons {entries : Entries} (comparisons : Comparisons entries)
      (alone : entries.bounds?.isSome = true →
        ∀ key ∈ Entries.keys entries, key = .operator .start ∨ key = .operator .stop) :
      Body (.mapping entries)

/-- An operator body in which two bounds stand under `between`. -/
inductive RangedBody : Node → Prop
  | range (start stop : Scalar) :
      RangedBody (entry (.operator .between)
        (.mapping [(.operator .start, .scalar start), (.operator .stop, .scalar stop)]))
  | comparisons {entries : Entries} (comparisons : Comparisons entries)
      (unbounded : entries.bounds? = none) : RangedBody (.mapping entries)

/-- An operator body without a range. -/
inductive PlainBody : Node → Prop
  | comparisons {entries : Entries} (comparisons : Comparisons entries)
      (unbounded : entries.bounds? = none) : PlainBody (.mapping entries)

/-- A mapping of fields, each bound to a scalar or to an operator body. -/
structure Fields (Body : Node → Prop) (entries : Entries) : Prop where
  field : ∀ entry ∈ entries, ∃ name, entry.1 = .field name
  value : ∀ entry ∈ entries, (∃ scalar, entry.2 = .scalar scalar) ∨ Body entry.2

theorem Fields.notOperators {Body : Node → Prop} {entries : Entries}
    (fields : Fields Body entries) : ∀ key ∈ Entries.keys entries, key.isOperator = false := by
  intro key present
  rcases List.mem_map.mp present with ⟨entry, among, rfl⟩
  exact Key.isOperator_eq_false.mpr (fields.field entry among)

theorem Fields.category?_eq_none {Body : Node → Prop} {entries : Entries}
    (fields : Fields Body entries) : ∀ key ∈ Entries.keys entries, key.category? = none := by
  intro key present
  rcases List.mem_map.mp present with ⟨entry, among, rfl⟩
  rcases fields.field entry among with ⟨name, sameKey⟩
  rw [sameKey, Key.category?_field]

/-- A well-formed clause: a mapping of fields, a combination of clauses, or a structural mapping. -/
inductive Clause (Body : Node → Prop) : Node → Prop
  | fields {entries : Entries} (fields : Fields Body entries) : Clause Body (.mapping entries)
  | logical {entries : Entries} (nonempty : entries ≠ [])
      (logical : ∀ key ∈ Entries.keys entries, key.category? = some .logical)
      (multiset : ∀ entry ∈ entries, ∃ elements, entry.2 = .multiset elements)
      (clause : ∀ entry ∈ entries, ∀ elements, entry.2 = .multiset elements →
        ∀ element ∈ elements, Clause Body element) :
      Clause Body (.mapping entries)
  | structural {entries : Entries} (nonempty : entries ≠ [])
      (structural : ∀ key ∈ Entries.keys entries, key.category? = some .structural)
      (clause : ∀ entry ∈ entries, entry.2.isComposite = true → Clause Body entry.2) :
      Clause Body (.mapping entries)

section Walk

variable {pass value : Node → Except Fault Node}

/-- How a pass goes through combinations of clauses and structural mappings: entry by entry, with
what it makes of the value of an entry. -/
structure Walks (pass value : Node → Except Fault Node) : Prop where
  scalar : ∀ scalar, value (.scalar scalar) = .ok (.scalar scalar)
  multiset : ∀ elements,
    value (.multiset elements) = (Elements.traverse pass elements).map .multiset
  clause : ∀ entries : Entries, (∀ key ∈ Entries.keys entries, key.category? ≠ some .comparison) →
    value (.mapping entries) = pass (.mapping entries)
  whole : ∀ (category : Operator.Category) (entries : Entries), category ≠ .comparison →
    entries ≠ [] → (∀ key ∈ Entries.keys entries, key.category? = some category) →
      pass (.mapping entries) = (Entries.traverse value entries).map .mapping
  proper : ∀ {node result : Node}, node.Proper → pass node = .ok result → result.Proper

/-- A clause is a mapping in which no comparison stands. -/
theorem Clause.exists_mapping {Body : Node → Prop} {node : Node} (clause : Clause Body node) :
    ∃ entries, node = .mapping entries ∧
      ∀ key ∈ Entries.keys entries, key.category? ≠ some .comparison := by
  cases clause with
  | @fields entries fields =>
      refine ⟨entries, rfl, ?_⟩
      intro key present
      simp [fields.category?_eq_none key present]
  | @logical entries _ logical _ _ =>
      refine ⟨entries, rfl, ?_⟩
      intro key present
      simp [logical key present]
  | @structural entries _ structural _ =>
      refine ⟨entries, rfl, ?_⟩
      intro key present
      simp [structural key present]

theorem Clause.isMapping {Body : Node → Prop} {node : Node} (clause : Clause Body node) :
    node.isMapping = true := by
  rcases clause.exists_mapping with ⟨entries, rfl, _⟩
  rfl

variable {Source Target : Node → Prop} {relation : Node → Node → Prop}

/-- A pass makes a clause of a clause, and the two are related. -/
def Rewritten (Target : Node → Prop) (relation : Node → Node → Prop)
    (outcome : Except Fault Node) (node : Node) : Prop :=
  ∃ result, outcome = .ok result ∧ Clause Target result ∧ relation node result

/-- The second multiset holds clauses that are related to those of the first, without those that
became equal. -/
inductive RelatedMembers (Target : Node → Prop) (relation : Node → Node → Prop) :
    Node → Node → Prop
  | multiset {elements values : List Node} (proper : ∀ value ∈ values, value.Proper)
      (each : List.Forall₂ (fun element value => Clause Target value ∧ relation element value)
        elements values) :
      RelatedMembers Target relation (.multiset elements) (.multiset (Elements.ofList values))

/-- Values of structural mappings: one scalar, or related clauses. -/
inductive RelatedParts (relation : Node → Node → Prop) : Node → Node → Prop
  | scalar (value : Scalar) : RelatedParts relation (.scalar value) (.scalar value)
  | clause {entries results : Entries} (related : relation (.mapping entries) (.mapping results)) :
      RelatedParts relation (.mapping entries) (.mapping results)

/-- A relation goes through combinations of clauses and structural mappings. -/
structure Congruent (Target : Node → Prop) (relation : Node → Node → Prop) : Prop where
  logical : ∀ {entries results : Entries},
    (∀ key ∈ Entries.keys entries, key.category? = some .logical) →
      List.Forall₂ (Entries.Corresponds (RelatedMembers Target relation)) entries results →
        relation (.mapping entries) (.mapping results)
  structural : ∀ {entries results : Entries}, entries ≠ [] →
    (∀ key ∈ Entries.keys entries, key.category? = some .structural) →
      List.Forall₂ (Entries.Corresponds (RelatedParts relation)) entries results →
        relation (.mapping entries) (.mapping results)

theorem Walks.rewrites_multiset (walks : Walks pass value) {elements : Elements}
    (proper : ∀ element ∈ elements, element.Proper)
    (rewritten : ∀ element ∈ elements, Rewritten Target relation (pass element) element) :
    ∃ results, value (.multiset elements) = .ok (.multiset results) ∧
      (∀ result ∈ results, Clause Target result) ∧
      RelatedMembers Target relation (.multiset elements) (.multiset results) := by
  rcases exists_forall₂ rewritten with ⟨values, related⟩
  have passed : List.Forall₂ (fun element result => pass element = .ok result) elements values :=
    related.imp fun element result holds => holds.1
  refine ⟨Elements.ofList values, ?_, ?_, ?_⟩
  · rw [walks.multiset, Elements.map_traverse_eq_ok]
    exact ⟨values, passed, rfl⟩
  · intro result present
    rcases exists_source related (Elements.mem_of_mem_ofList present) with ⟨_, _, _, clause, _⟩
    exact clause
  · apply RelatedMembers.multiset _ (related.imp fun element result holds => holds.2)
    intro result present
    rcases exists_source passed present with ⟨element, among, passedElement⟩
    exact walks.proper (proper element among) passedElement

theorem Walks.rewrites_logical (walks : Walks pass value) (congruent : Congruent Target relation)
    {entries : Entries} (nonempty : entries ≠ [])
    (logical : ∀ key ∈ Entries.keys entries, key.category? = some .logical)
    (multiset : ∀ entry ∈ entries, ∃ elements, entry.2 = .multiset elements)
    (proper : ∀ entry ∈ entries, entry.2.Proper)
    (rewritten : ∀ entry ∈ entries, ∀ elements, entry.2 = .multiset elements →
      ∀ element ∈ elements, Rewritten Target relation (pass element) element) :
    Rewritten Target relation (pass (.mapping entries)) (.mapping entries) := by
  have partner : ∀ entry ∈ entries, ∃ result : Key × Node,
      Entries.Corresponds (fun node result => value node = .ok result) entry result ∧
        (∃ results, result.2 = .multiset results ∧ ∀ clause ∈ results, Clause Target clause) ∧
        RelatedMembers Target relation entry.2 result.2 := by
    rintro ⟨key, node⟩ present
    rcases multiset _ present with ⟨elements, isMultiset⟩
    subst isMultiset
    have elementsProper := (proper_multiset.mp (proper _ present)).2
    rcases walks.rewrites_multiset elementsProper (rewritten _ present elements rfl) with
      ⟨results, passed, clauses, members⟩
    exact ⟨(key, .multiset results), ⟨rfl, passed⟩, ⟨results, rfl, clauses⟩, members⟩
  rcases exists_forall₂ partner with ⟨results, related⟩
  have passed := related.imp fun entry result holds => holds.1
  have sameKeys := Entries.keys_eq_of_forall₂ passed
  refine ⟨.mapping results, ?_, ?_, ?_⟩
  · rw [walks.whole .logical entries (by simp) nonempty logical, Entries.map_traverse_eq_ok]
    exact ⟨results, passed, rfl⟩
  · apply Clause.logical
    · rw [← Entries.keys_ne_nil, sameKeys]
      exact Entries.keys_ne_nil.mpr nonempty
    · rwa [sameKeys]
    · intro result present
      rcases exists_source related present with ⟨_, _, _, ⟨elements, isMultiset, _⟩, _⟩
      exact ⟨elements, isMultiset⟩
    · intro result present elements isMultiset
      rcases exists_source related present with ⟨_, _, _, ⟨others, sameMultiset, clauses⟩, _⟩
      rw [isMultiset, Node.multiset.injEq] at sameMultiset
      rw [sameMultiset]
      exact clauses
  · apply congruent.logical logical
    exact related.imp fun entry result holds => ⟨holds.1.1, holds.2.2⟩

theorem Walks.rewrites_structural (walks : Walks pass value)
    (congruent : Congruent Target relation) {entries : Entries} (nonempty : entries ≠ [])
    (structural : ∀ key ∈ Entries.keys entries, key.category? = some .structural)
    (clause : ∀ entry ∈ entries, entry.2.isComposite = true → Clause Source entry.2)
    (rewritten : ∀ entry ∈ entries, entry.2.isComposite = true →
      Rewritten Target relation (pass entry.2) entry.2) :
    Rewritten Target relation (pass (.mapping entries)) (.mapping entries) := by
  have partner : ∀ entry ∈ entries, ∃ result : Key × Node,
      Entries.Corresponds (fun node result => value node = .ok result) entry result ∧
        (result.2.isComposite = true → Clause Target result.2) ∧
        RelatedParts relation entry.2 result.2 := by
    rintro ⟨key, node⟩ present
    cases composite : node.isComposite with
    | false =>
        rcases exists_scalar composite with ⟨scalar, rfl⟩
        refine ⟨(key, .scalar scalar), ⟨rfl, walks.scalar scalar⟩, ?_, .scalar scalar⟩
        simp [isComposite]
    | true =>
        rcases (clause _ present composite).exists_mapping with ⟨inner, isMapping, noComparison⟩
        rcases rewritten _ present composite with ⟨result, passed, resultClause, related⟩
        rcases resultClause.exists_mapping with ⟨resultInner, rfl, _⟩
        simp only at isMapping passed related
        subst isMapping
        refine ⟨(key, .mapping resultInner), ⟨rfl, ?_⟩, fun _ => resultClause, .clause related⟩
        exact (walks.clause inner noComparison).trans passed
  rcases exists_forall₂ partner with ⟨results, related⟩
  have passed := related.imp fun entry result holds => holds.1
  have sameKeys := Entries.keys_eq_of_forall₂ passed
  refine ⟨.mapping results, ?_, ?_, ?_⟩
  · rw [walks.whole .structural entries (by simp) nonempty structural, Entries.map_traverse_eq_ok]
    exact ⟨results, passed, rfl⟩
  · apply Clause.structural
    · rw [← Entries.keys_ne_nil, sameKeys]
      exact Entries.keys_ne_nil.mpr nonempty
    · rwa [sameKeys]
    · intro result present composite
      rcases exists_source related present with ⟨_, _, _, resultClause, _⟩
      exact resultClause composite
  · apply congruent.structural nonempty structural
    exact related.imp fun entry result holds => ⟨holds.1.1, holds.2.2⟩

/-- A pass rewrites clauses along a congruent relation if it does so with field mappings. -/
theorem Walks.rewrites (walks : Walks pass value) (congruent : Congruent Target relation)
    (fields : ∀ entries : Entries, Fields Source entries → Proper (.mapping entries) →
      Rewritten Target relation (pass (.mapping entries)) (.mapping entries))
    {node : Node} (clause : Clause Source node) (proper : node.Proper) :
    Rewritten Target relation (pass node) node := by
  induction clause with
  | fields mapping => exact fields _ mapping proper
  | logical nonempty logical multiset _ ih =>
      have valuesProper := (proper_mapping.mp proper).2
      apply walks.rewrites_logical congruent nonempty logical multiset valuesProper
      intro entry present elements isMultiset element among
      have elementsProper := valuesProper entry present
      rw [isMultiset, proper_multiset] at elementsProper
      exact ih entry present elements isMultiset element among (elementsProper.2 element among)
  | structural nonempty structural clause ih =>
      have valuesProper := (proper_mapping.mp proper).2
      apply walks.rewrites_structural congruent nonempty structural clause
      intro entry present composite
      exact ih entry present composite (valuesProper entry present)

/-- Entries bind one field, to related values. -/
def RelatedFields (sameValue : String → Node → Node → Prop) (entry result : Key × Node) : Prop :=
  ∃ name, entry.1 = .field name ∧ result.1 = .field name ∧ sameValue name entry.2 result.2

/-- A pass that goes through field mappings too rewrites them if it does so with every operator
body. -/
theorem rewrites_fields (sameValue : String → Node → Node → Prop)
    (scalar : ∀ scalar, value (.scalar scalar) = .ok (.scalar scalar))
    (sameScalar : ∀ name scalar, sameValue name (.scalar scalar) (.scalar scalar))
    (body : ∀ node, Source node → node.Proper → ∃ result, value node = .ok result ∧
      Target result ∧ ∀ name, sameValue name node result)
    {entries : Entries} (fields : Fields Source entries) (proper : Proper (.mapping entries))
    (entrywise : pass (.mapping entries) = (Entries.traverse value entries).map .mapping)
    (congruent : ∀ {results : Entries}, Fields Target results →
      List.Forall₂ (RelatedFields sameValue) entries results →
        relation (.mapping entries) (.mapping results)) :
    Rewritten Target relation (pass (.mapping entries)) (.mapping entries) := by
  rw [proper_mapping] at proper
  have partner : ∀ entry ∈ entries, ∃ result : Key × Node,
      Entries.Corresponds (fun node result => value node = .ok result) entry result ∧
        ((∃ scalar, result.2 = .scalar scalar) ∨ Target result.2) ∧
        RelatedFields sameValue entry result := by
    rintro ⟨key, node⟩ present
    rcases fields.field _ present with ⟨name, sameKey⟩
    simp only at sameKey
    subst sameKey
    rcases fields.value _ present with ⟨leaf, isScalar⟩ | isBody
    · simp only at isScalar
      subst isScalar
      exact ⟨(.field name, .scalar leaf), ⟨rfl, scalar leaf⟩, .inl ⟨leaf, rfl⟩,
        name, rfl, rfl, sameScalar name leaf⟩
    · rcases body _ isBody (proper.2 _ present) with ⟨result, passed, resultBody, same⟩
      exact ⟨(.field name, result), ⟨rfl, passed⟩, .inr resultBody, name, rfl, rfl, same name⟩
  rcases exists_forall₂ partner with ⟨results, related⟩
  have passed := related.imp fun entry result holds => holds.1
  have resultFields : Fields Target results := by
    constructor
    · intro result present
      rcases exists_source related present with ⟨_, _, _, _, name, _, sameKey, _⟩
      exact ⟨name, sameKey⟩
    · intro result present
      rcases exists_source related present with ⟨_, _, _, resultValue, _⟩
      exact resultValue
  refine ⟨.mapping results, ?_, .fields resultFields, ?_⟩
  · rw [entrywise, Entries.map_traverse_eq_ok]
    exact ⟨results, passed, rfl⟩
  · exact congruent resultFields (related.imp fun entry result holds => holds.2.2)

end Walk

end Node

end FilterLang
